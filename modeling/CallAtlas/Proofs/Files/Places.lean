import CallAtlas.Proofs.Files.Candidates
import CallAtlas.Proofs.Text.Segments

namespace CallAtlas

open CallAtlas.Text

namespace Text

theorem join_names_inj {names others : List String} (plain : ∀ n ∈ names, '/' ∉ n.toList)
    (plain' : ∀ n ∈ others, '/' ∉ n.toList) (filled : names ≠ []) (filled' : others ≠ [])
    (same : join "/" names = join "/" others) : names = others := by
  have pieces := congrArg (split '/') same
  rwa [split_join plain filled, split_join plain' filled'] at pieces

-- Joined names begin with a directory and a separator exactly if the first of them spell it.
theorem startsWith_join {names : List String} (plain : ∀ n ∈ names, '/' ∉ n.toList) (dir : String) :
    startsWith (join "/" names) (dir ++ "/") = true ↔
      ∃ holders more, names = holders ++ more ∧ holders ≠ [] ∧ more ≠ [] ∧ dir = join "/" holders := by
  rw [startsWith, List.isPrefixOf_iff_prefix]
  constructor
  · rintro ⟨rest, whole⟩
    have spelled : join "/" names = dir ++ "/" ++ String.ofList rest := by
      rw [← String.toList_inj, String.toList_append, String.toList_ofList, whole]
    have filled : names ≠ [] := by
      rintro rfl
      simp [join] at whole
    have pieces := split_join plain filled
    rw [spelled, Path.split_append_slash] at pieces
    have nonempty : ∀ text : String, split '/' text ≠ [] := fun text none =>
      splitBy_ne_nil _ (List.map_eq_nil_iff.mp none)
    exact ⟨_, _, pieces.symm, nonempty dir, nonempty _, (join_split rfl dir).symm⟩
  · rintro ⟨holders, more, rfl, filled, left, rfl⟩
    unfold join
    rw [String.intercalate_append_of_ne_nil filled left]
    exact ⟨(join "/" more).toList, by simp [join]⟩

end Text

theorem Path.components_names {names : List String} (plain : ∀ n ∈ names, IsName n) (first : Bool) :
    componentsOf names first = names.map .name := by
  induction names generalizing first with
  | nil => rfl
  | cons n rest ih =>
    obtain ⟨⟨filled, here, above, _⟩, others⟩ := List.forall_mem_cons.mp plain
    simp [componentsOf, filled, here, above, ih others]

theorem Path.join_name_text (dir : Path) {n : String} (plain : IsName n) :
    n.toList <:+ (dir.join n).text.toList := by
  rw [join_text dir plain, String.toList_append]
  exact List.suffix_append _ _

namespace Disk

variable {d : Disk} {place below : Place}

theorem namesDirectory_join (dir : Path) {n : String} (plain : Path.IsName n) :
    namesDirectory (dir.join n) = false := by
  have name := Path.join_name_text dir plain
  obtain ⟨filled, here, _, slash⟩ := plain
  -- An ending reaches into the name or is longer than it.
  have unended : ∀ tail : String, '/' ∈ tail.toList → ¬ n.toList <:+ tail.toList →
      endsWith (dir.join n).text tail = false := by
    intro tail slashed longer
    rw [Bool.eq_false_iff]
    intro ends
    rcases List.suffix_or_suffix_of_suffix (List.isSuffixOf_iff_suffix.mp ends) name with inside | around
    · exact slash (inside.subset slashed)
    · exact longer around
  have short : n.toList ≠ [] := fun empty => filled (String.toList_eq_nil_iff.mp empty)
  have dot : n.toList ≠ ['.'] := fun same => here (String.toList_inj.mp same)
  unfold namesDirectory
  rw [unended "/" (by decide), unended "/." (by decide)]
  · rfl
  · intro part
    have whole : n.toList = ['/', '.'] := by
      simpa [List.suffix_cons_iff, short, dot] using part
    exact slash (by simp [whole])
  · intro part
    have whole : n.toList = ['/'] := by
      simpa [List.suffix_cons_iff, short] using part
    exact slash (by simp [whole])

theorem pathOf_ends {last : String} (plain : ∀ n ∈ place ++ [last], Path.IsName n) :
    endsWith (pathOf (place ++ [last])).text "/" = false := by
  rw [Bool.eq_false_iff]
  intro slash
  obtain ⟨lead, whole⟩ := List.isSuffixOf_iff_suffix.mp slash
  have spelled : (pathOf (place ++ [last])).text = String.ofList lead ++ "/" := by
    rw [← String.toList_inj, String.toList_append, String.toList_ofList]
    exact whole.symm
  -- The last piece of a text that ends in a slash is empty, and no name is.
  have rooted := Path.split_append_slash "" (join "/" (place ++ [last]))
  have ended := Path.split_append_slash (String.ofList lead) ""
  rw [String.empty_append] at rooted
  rw [String.append_empty] at ended
  have slashless : ∀ n ∈ place ++ [last], '/' ∉ n.toList := fun n member => (plain n member).2.2.2
  have pieces : split '/' ("/" ++ join "/" (place ++ [last])) = split '/' (String.ofList lead ++ "/") :=
    congrArg (split '/') spelled
  rw [rooted, ended, split_join slashless (List.concat_ne_nil last place), ← List.append_assoc] at pieces
  have empty : last = "" := List.singleton_inj.mp (List.append_inj_right' pieces rfl)
  exact (plain last List.mem_concat_self).1 empty

theorem join_pathOf {n : String} (plain : ∀ n ∈ place, Path.IsName n) (named : Path.IsName n) :
    (pathOf place).join n = pathOf (place ++ [n]) := by
  unfold Path.join
  rw [named.relative, if_neg Bool.false_ne_true]
  rcases List.eq_nil_or_concat place with rfl | ⟨holders, last, rfl⟩
  · rw [if_pos (by decide)]
    rfl
  · rw [List.concat_eq_append] at plain ⊢
    have filled : ("/" ++ join "/" (holders ++ [last]) == "") = false := by simp
    have open_ : endsWith ("/" ++ join "/" (holders ++ [last])) "/" = false := pathOf_ends plain
    rw [pathOf, filled, open_, if_neg (by decide), pathOf]
    unfold join
    rw [String.intercalate_append_of_ne_nil (List.concat_ne_nil last holders) (List.cons_ne_nil n []),
      String.intercalate_singleton, String.append_assoc, String.append_assoc, String.append_assoc]

theorem spelled_pathOf (holders : ∀ n ∈ place, Path.IsName n) (plain : ∀ n ∈ below, Path.IsName n) :
    spelled (pathOf place) below = pathOf (place ++ below) := by
  induction below generalizing place with
  | nil => rw [List.append_nil]; rfl
  | cons n rest ih =>
    obtain ⟨first, others⟩ := List.forall_mem_cons.mp plain
    have next : ∀ n' ∈ place ++ [n], Path.IsName n' := by
      simpa [or_imp, forall_and] using And.intro holders first
    have further := ih next others
    rw [List.append_assoc, ← join_pathOf holders first] at further
    exact further

theorem pathOf_components (plain : ∀ n ∈ place, Path.IsName n) :
    (pathOf place).components = .root :: place.map Path.Component.name := by
  have spelling := @spelled_pathOf [] place nofun plain
  rw [List.nil_append] at spelling
  rw [← spelling, spelled_components plain]
  rfl

theorem pathOf_inj {other : Place} (plain : ∀ n ∈ place, Path.IsName n)
    (plain' : ∀ n ∈ other, Path.IsName n) (same : pathOf place = pathOf other) : place = other := by
  have parts := congrArg Path.components same
  rw [pathOf_components plain, pathOf_components plain', List.cons.injEq] at parts
  exact List.map_injective_iff.mpr (fun _ _ => Path.Component.name.inj) parts.2

theorem relativeTo?_pathOf (holders : ∀ n ∈ place, Path.IsName n) (plain : ∀ n ∈ below, Path.IsName n) :
    (pathOf (place ++ below)).relativeTo? (pathOf place) = some ⟨join "/" below⟩ := by
  have whole : ∀ n ∈ place ++ below, Path.IsName n := List.forall_mem_append.mpr ⟨holders, plain⟩
  have spelling : Path.ofComponents (below.map Path.Component.name) = ⟨join "/" below⟩ := by
    have texts : (below.map Path.Component.name).map Path.Component.text = below := by
      rw [List.map_map]
      exact List.map_id' below
    have other : Path.ofComponents (below.map Path.Component.name) =
        ⟨join "/" ((below.map Path.Component.name).map Path.Component.text)⟩ := by
      cases below <;> rfl
    rw [other, texts]
  unfold Path.relativeTo?
  simp only [pathOf_components whole, pathOf_components holders, List.map_append, ← List.cons_append,
    List.isPrefixOf_iff_prefix, List.prefix_append, List.drop_left, if_true, spelling]

theorem namesDirectory_pathOf {n : String} (plain : ∀ n ∈ place, Path.IsName n) (named : Path.IsName n) :
    namesDirectory (pathOf (place ++ [n])) = false := by
  rw [← join_pathOf plain named]
  exact namesDirectory_join (pathOf place) named

theorem follow_append (first second : List Path.Component) (at_ : Place) :
    d.follow at_ (first ++ second) = (d.follow at_ first).bind (d.follow · second) := by
  induction first generalizing at_ with
  | nil => rfl
  | cons step rest ih =>
    cases step <;> simp only [List.cons_append, follow, ih]
    all_goals split <;> rfl

theorem follow_names {names : List String} {at_ place : Place}
    (followed : d.follow at_ (names.map .name) = some place) : place = at_ ++ names := by
  induction names generalizing at_ with
  | nil =>
    cases followed
    exact (List.append_nil _).symm
  | cons n rest ih =>
    simp only [List.map_cons, follow] at followed
    split at followed
    · rw [ih followed, List.append_assoc, List.singleton_append]
    · cases followed

theorem locate?_pathOf {place' : Place} (plain : ∀ n ∈ place, Path.IsName n)
    (located : d.locate? (pathOf place) = some place') : place' = place := by
  unfold locate? at located
  split at located
  · cases located
  · rw [pathOf_components plain] at located
    exact follow_names located

-- A path that ends in a name leads to a place of that name.
theorem follow_last {at_ : Place} {steps : List Path.Component} {n : String}
    (followed : d.follow at_ (steps ++ [.name n]) = some place) : place.getLast? = some n := by
  induction steps generalizing at_ with
  | nil =>
    simp only [List.nil_append, follow] at followed
    split at followed
    · cases followed
      exact List.getLast?_concat
    · cases followed
  | cons step rest ih =>
    cases step with
    | root => exact ih followed
    | _ =>
      simp only [List.cons_append, follow] at followed
      split at followed
      · exact ih followed
      · cases followed

theorem locate?_last {p : Path} {parts : List Path.Component}
    {n : String} (ends : p.components = parts ++ [.name n]) (located : d.locate? p = some place) :
    place.getLast? = some n := by
  unfold locate? at located
  split at located
  · cases located
  · rw [ends] at located
    exact follow_last located

-- Names are followed through directories.
theorem follow_dir {names : List String} {at_ place : Place} (filled : names ≠ [])
    (followed : d.follow at_ (names.map .name) = some place) : d.isDirAt at_ = true := by
  cases names with
  | nil => exact absurd rfl filled
  | cons n rest =>
    simp only [List.map_cons, follow] at followed
    split at followed
    · assumption
    · cases followed

-- A directory that is named from another.
theorem locate?_names {dir : Path} {w place : Place} {names : List String}
    (plain : ∀ n ∈ names, Path.IsName n) (filled : names ≠ [])
    (relative : startsWith (join "/" names) "/" = false) (start : d.locate? dir = some w)
    (located : d.locate? (dir.join (join "/" names)) = some place) :
    place = w ++ names ∧ d.isDirAt w = true := by
  have spelled : (dir.join (join "/" names)).components =
      dir.components ++ names.map .name := by
    rw [Path.components_join dir relative,
      split_join (fun n inside => (plain n inside).2.2.2) filled, Path.components_names plain]
  unfold locate? at start located
  split at start
  · cases start
  · split at located
    · cases located
    · rw [spelled, follow_append, start] at located
      exact ⟨follow_names located, follow_dir filled located⟩

theorem Proper.entry_named (proper : d.Proper) {e : Entry} (present : d.entry? place = some e) :
    ∀ n ∈ place, Path.IsName n := by
  unfold entry? at present
  split at present
  · rename_i top
    cases List.isEmpty_iff.mp top
    exact nofun
  · obtain ⟨before, after, split, _⟩ := List.lookup_eq_some_iff.mp present
    exact proper.named (place, e) (by simp [split])

theorem Proper.canonical?_exact (proper : d.Proper) {p root : Path} (found : d.canonical? p = some root) :
    ∃ place, root = pathOf place ∧ d.locate? p = some place ∧ ∀ n ∈ place, Path.IsName n := by
  obtain ⟨e, present, found⟩ := Option.bind_eq_some_iff.mp found
  obtain ⟨place, located, found⟩ := Option.bind_eq_some_iff.mp found
  obtain ⟨place', located', there⟩ := Option.bind_eq_some_iff.mp present
  cases located.symm.trans located'
  obtain ⟨e', entry, _⟩ := Option.bind_eq_some_iff.mp there
  cases found
  exact ⟨place, rfl, located, proper.entry_named entry⟩

-- A walk from the path of a place meets files there and below.
theorem Proper.walk_below (proper : d.Proper) (plain : ∀ n ∈ place, Path.IsName n) {met : Path × Place}
    (member : met ∈ d.walk (pathOf place)) :
    ∃ below, (∀ n ∈ below, Path.IsName n) ∧ met.1 = pathOf (place ++ below) ∧ met.2 = place ++ below := by
  unfold walk at member
  split at member
  · rename_i located
    cases List.mem_singleton.mp member
    cases locate?_pathOf plain located
    exact ⟨[], nofun, by rw [List.append_nil], (List.append_nil _).symm⟩
  · rename_i located
    cases locate?_pathOf plain located
    obtain ⟨entry, inside, visited⟩ := List.mem_filterMap.mp member
    obtain ⟨⟨body, rfl⟩, ⟨below, whole⟩, spelling⟩ := visit?_exact visited
    have named : ∀ n ∈ place ++ below, Path.IsName n := whole ▸ proper.named _ inside
    have further : ∀ n ∈ below, Path.IsName n := fun n last => named n (List.mem_append_right _ last)
    refine ⟨below, further, ?_, whole.symm⟩
    rw [spelling, ← whole, List.drop_left, spelled_pathOf plain further]
  · cases member

end Disk

namespace Discovery

variable {d : Disk} {place : Place} {filter : Option String} {f : Candidate}

theorem candidates_below (proper : d.Proper) (plain : ∀ n ∈ place, Path.IsName n)
    (member : f ∈ candidates d (Disk.pathOf place) filter) :
    ∃ below, (∀ n ∈ below, Path.IsName n) ∧ f.path = Disk.pathOf (place ++ below) ∧
      f.relative.text = join "/" below ∧ '/' ∉ f.name.toList := by
  obtain ⟨⟨path, at_⟩, met, made⟩ := List.mem_filterMap.mp member
  obtain ⟨name, named, made⟩ := Option.bind_eq_some_iff.mp made
  obtain ⟨body, _, made⟩ := Option.bind_eq_some_iff.mp made
  dsimp only at made
  split at made
  · cases made
    obtain ⟨below, further, rfl, _⟩ := proper.walk_below plain met
    refine ⟨below, further, rfl, ?_, ?_⟩
    · dsimp only
      rw [Disk.relativeTo?_pathOf plain further]
      rfl
    · dsimp only at named ⊢
      unfold Path.fileName? at named
      split at named
      · rename_i last
        cases named
        exact Path.name_without_slash (List.mem_of_getLast? last)
      · cases named
  · cases made

end Discovery

end CallAtlas
