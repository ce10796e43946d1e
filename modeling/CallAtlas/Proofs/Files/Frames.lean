import CallAtlas.Proofs.Files.Growth

namespace CallAtlas

open CallAtlas.Text

namespace Disk

variable {d d' : Disk} {own : Place → Bool} {at_ place q : Place} {p root : Path}

theorem read?_exact {body : Body} : d.read? p = some body ↔
    ∃ place, d.locate? p = some place ∧ namesDirectory p = false ∧ d.bodyAt? place = some body := by
  constructor
  · intro found
    unfold read? at found
    split at found
    · rename_i file there
      cases found
      obtain ⟨place, located, there⟩ := Option.bind_eq_some_iff.mp there
      obtain ⟨e, present, there⟩ := Option.bind_eq_some_iff.mp there
      refine ⟨place, located, ?_⟩
      split at there
      · cases there
      · split at there
        · cases there
        · rename_i plain
          cases there
          exact ⟨by simpa using plain, bodyAt?_eq_some.mpr present⟩
    · cases found
  · rintro ⟨place, located, plain, there⟩
    rw [read?_located located plain, there]

theorem Grown.follow (grown : Grown own d d') {steps : List Path.Component}
    (followed : d.follow at_ steps = some place) : d'.follow at_ steps = some place := by
  induction steps generalizing at_ with
  | nil => exact followed
  | cons step rest ih =>
    cases step with
    | root => exact ih followed
    | _ =>
      simp only [Disk.follow] at followed ⊢
      split at followed
      · rename_i directory
        rw [if_pos (grown.dirs at_ directory)]
        exact ih followed
      · cases followed

theorem Grown.locate? (grown : Grown own d d') (located : d.locate? p = some place) :
    d'.locate? p = some place := by
  unfold Disk.locate? at located ⊢
  split at located
  · cases located
  · rename_i filled
    rw [if_neg filled, grown.start]
    exact grown.follow located

-- A path that is not one's own is read as before, unless it leads to a file only now.
theorem Grown.read?_eq (grown : Grown own d d')
    (other : ∀ place, d'.locate? p = some place → own place = false)
    (known : (d'.read? p).isSome = true → (d.read? p).isSome = true) : d'.read? p = d.read? p := by
  cases before : d.read? p with
  | none =>
    cases now : d'.read? p with
    | none => rfl
    | some body =>
      rw [now, before] at known
      cases known rfl
  | some body =>
    obtain ⟨place, located, plain, there⟩ := read?_exact.mp before
    have located' := grown.locate? located
    exact read?_exact.mpr ⟨place, located', plain, (grown.bodies place (other place located')).trans there⟩

-- Where the directories have stayed, no path leads to more than before.
theorem Grown.read?_same (grown : Grown own d d') (same : SameTree d d')
    (other : ∀ place, d.locate? p = some place → own place = false) : d'.read? p = d.read? p := by
  refine grown.read?_eq (fun place located => other place ((same.locate? p).symm.trans located)) ?_
  intro found
  obtain ⟨body, found⟩ := Option.isSome_iff_exists.mp found
  obtain ⟨place, located, plain, present⟩ := read?_exact.mp found
  rw [same.locate?] at located
  rw [grown.bodies place (other place located)] at present
  rw [read?_exact.mpr ⟨place, located, plain, present⟩]
  rfl

theorem at?_isSome (p : Path) : (d.at? p).isSome = true ↔ ∃ place, d.locate? p = some place ∧
    (d.isDirAt place = true ∨ namesDirectory p = false ∧ (d.bodyAt? place).isSome = true) := by
  constructor
  · intro found
    obtain ⟨e, there⟩ := Option.isSome_iff_exists.mp found
    obtain ⟨place, located, there⟩ := Option.bind_eq_some_iff.mp there
    obtain ⟨e, present, there⟩ := Option.bind_eq_some_iff.mp there
    refine ⟨place, located, ?_⟩
    split at there
    · exact .inl (isDirAt_iff.mpr present)
    · split at there
      · cases there
      · rename_i plain
        exact .inr ⟨by simpa using plain, by rw [bodyAt?_eq_some.mpr present]; rfl⟩
  · rintro ⟨place, located, directory | ⟨plain, file⟩⟩
    · unfold at?
      rw [located, Option.bind_eq_bind, Option.bind_some, isDirAt_iff.mp directory]
      rfl
    · obtain ⟨body, file⟩ := Option.isSome_iff_exists.mp file
      unfold at?
      rw [located, Option.bind_eq_bind, Option.bind_some, bodyAt?_eq_some.mp file]
      simp [plain]

theorem Grown.at?_isSome (grown : Grown own d d') (there : (d.at? p).isSome = true) :
    (d'.at? p).isSome = true := by
  obtain ⟨place, located, kind⟩ := (Disk.at?_isSome p).mp there
  refine (Disk.at?_isSome p).mpr ⟨place, grown.locate? located, ?_⟩
  exact kind.imp (grown.dirs place) (And.imp_right (grown.files place))

theorem canonical?_exact {root : Path} : d.canonical? p = some root ↔
    (d.at? p).isSome = true ∧ ∃ place, d.locate? p = some place ∧ root = pathOf place := by
  constructor
  · intro found
    obtain ⟨e, there, found⟩ := Option.bind_eq_some_iff.mp found
    obtain ⟨place, located, found⟩ := Option.bind_eq_some_iff.mp found
    cases found
    exact ⟨by rw [there]; rfl, place, located, rfl⟩
  · rintro ⟨there, place, located, rfl⟩
    obtain ⟨e, there⟩ := Option.isSome_iff_exists.mp there
    unfold canonical?
    rw [there, Option.bind_eq_bind, Option.bind_some, located]
    rfl

theorem Grown.canonical? (grown : Grown own d d') (found : d.canonical? p = some root) :
    d'.canonical? p = some root := by
  obtain ⟨there, place, located, rfl⟩ := canonical?_exact.mp found
  exact canonical?_exact.mpr ⟨grown.at?_isSome there, place, grown.locate? located, rfl⟩

-- The path of a place leads to what is there.
theorem Tree.read?_pathOf (tree : d.Tree) {body : Body} (present : d.bodyAt? place = some body) :
    d.read? (pathOf place) = some body := by
  have entry := bodyAt?_eq_some.mp present
  refine read?_exact.mpr ⟨place, tree.located entry, ?_, present⟩
  rcases List.eq_nil_or_concat place with rfl | ⟨holders, last, rfl⟩
  · cases entry
  · rw [List.concat_eq_append] at entry ⊢
    obtain ⟨plain, named⟩ := List.forall_mem_append.mp (tree.entry_named entry)
    exact namesDirectory_pathOf plain (named last List.mem_cons_self)

theorem Tree.at?_pathOf (tree : d.Tree) {e : Entry} (present : d.entry? place = some e) :
    (d.at? (pathOf place)).isSome = true := by
  refine (Disk.at?_isSome _).mpr ⟨place, tree.located present, ?_⟩
  cases e with
  | dir => exact .inl (isDirAt_iff.mpr present)
  | file body =>
    have there := bodyAt?_eq_some.mpr present
    obtain ⟨place', located, plain, _⟩ := read?_exact.mp (tree.read?_pathOf there)
    exact .inr ⟨plain, by rw [there]; rfl⟩

theorem Tree.canonical?_there (tree : d.Tree) (found : d.canonical? p = some root) :
    (d.at? root).isSome = true := by
  obtain ⟨there, place, located, rfl⟩ := canonical?_exact.mp found
  obtain ⟨place', located', kind⟩ := (Disk.at?_isSome p).mp there
  cases located.symm.trans located'
  rcases kind with directory | ⟨_, file⟩
  · exact tree.at?_pathOf (isDirAt_iff.mp directory)
  · obtain ⟨body, file⟩ := Option.isSome_iff_exists.mp file
    exact tree.at?_pathOf (bodyAt?_eq_some.mp file)

-- The files that say what is ignored, seen from the directory that they are for.
def ruleFiles : List (List String) := [[".ignore"], [".gitignore"], [".git", "info", "exclude"]]

-- A run that writes no rules and makes no repository.
structure Unruled (own : Place → Bool) (d d' : Disk) : Prop where
  rules : ∀ dir, ∀ file ∈ ruleFiles, own (dir ++ file) = false
  repositories : ∀ dir, d'.hasRepository dir = d.hasRepository dir

theorem Grown.isIgnored (grown : Grown own d d') (unruled : Unruled own d d') (at_ : Place) (isDir : Bool) :
    d'.isIgnored at_ isDir = d.isIgnored at_ isDir := by
  have verdicts : ∀ dir, ∀ file ∈ ruleFiles, d'.fileVerdict? dir file at_ isDir =
      d.fileVerdict? dir file at_ isDir := by
    intro dir file member
    unfold fileVerdict?
    rw [grown.bodies _ (unruled.rules dir file member)]
  have holders : d'.repositoryHolders at_ = d.repositoryHolders at_ := by
    unfold repositoryHolders
    simp only [funext unruled.repositories]
  unfold Disk.isIgnored
  simp only [holders, verdicts _ [".ignore"] (by decide), verdicts _ [".gitignore"] (by decide),
    verdicts _ [".git", "info", "exclude"] (by decide)]

theorem Grown.visit? (grown : Grown own d d') (unruled : Unruled own d d') (root : Path) (place : Place)
    (entry : Place × Entry) : d'.visit? root place entry = d.visit? root place entry := by
  obtain ⟨at_, e⟩ := entry
  cases e with
  | dir => rfl
  | file body => simp only [Disk.visit?, grown.isIgnored unruled]

-- A file that is met has the name of its place.
theorem walk_named (proper : d.Proper) {met : Path × Place} (member : met ∈ d.walk root) {name : String}
    (named : met.1.fileName? = some name) : met.2.getLast? = some name := by
  have ends : ∃ parts, met.1.components = parts ++ [.name name] := by
    unfold Path.fileName? at named
    split at named
    · rename_i last
      cases named
      exact ⟨_, (List.dropLast_append_getLast? _ last).symm⟩
    · cases named
  unfold walk at member
  split at member
  · rename_i located
    cases List.mem_singleton.mp member
    obtain ⟨parts, ends⟩ := ends
    exact locate?_last ends located
  · rename_i located
    obtain ⟨entry, inside, visited⟩ := List.mem_filterMap.mp member
    obtain ⟨⟨body, rfl⟩, ⟨below, whole⟩, spelling⟩ := visit?_exact visited
    obtain ⟨parts, ends⟩ := ends
    rw [← whole, List.drop_left] at spelling
    have plain : ∀ n ∈ below, Path.IsName n := fun n last =>
      proper.named _ inside n (whole ▸ List.mem_append_right _ last)
    rcases List.eq_nil_or_concat below with rfl | ⟨holders, last, rfl⟩
    · rw [spelling] at ends
      rw [← whole, List.append_nil]
      exact locate?_last ends located
    · rw [List.concat_eq_append] at spelling whole plain
      rw [spelling, spelled_components plain, List.map_append, ← List.append_assoc] at ends
      have same := List.append_inj_right' ends rfl
      simp only [List.map_cons, List.map_nil, List.cons.injEq, Path.Component.name.injEq, and_true] at same
      rw [← whole, ← List.append_assoc, List.getLast?_concat, same]
  · cases member

theorem walk_directory (located : d.locate? root = some place) (directory : d.isDirAt place = true) :
    d.walk root = d.entries.filterMap (d.visit? root place) := by
  have there : d.at? root = some .dir := by
    unfold at?
    rw [located, Option.bind_eq_bind, Option.bind_some, isDirAt_iff.mp directory]
    rfl
  unfold walk
  simp only [there, located]

theorem walk_file (located : d.locate? root = some place) (plain : namesDirectory root = false)
    (file : (d.bodyAt? place).isSome = true) : d.walk root = [(root, place)] := by
  obtain ⟨body, file⟩ := Option.isSome_iff_exists.mp file
  have there : d.at? root = some (.file body) := by
    unfold at?
    rw [located, Option.bind_eq_bind, Option.bind_some, bodyAt?_eq_some.mp file]
    simp [plain]
  unfold walk
  simp only [there, located]

theorem walk_there {met : Path × Place} (member : met ∈ d.walk root) : (d.at? root).isSome = true := by
  unfold walk at member
  split at member
  · rename_i there _
    rw [there]
    rfl
  · rename_i there _
    rw [there]
    rfl
  · cases member

-- The path under which a file is met leads to its place.
theorem walk_located (proper : d.Proper) {met : Path × Place} (member : met ∈ d.walk root)
    (located : d.locate? met.1 = some place) : place = met.2 := by
  unfold walk at member
  split at member
  · rename_i there
    cases List.mem_singleton.mp member
    exact Option.some.inj (located.symm.trans there)
  · rename_i top _ there
    obtain ⟨entry, inside, visited⟩ := List.mem_filterMap.mp member
    obtain ⟨⟨body, rfl⟩, ⟨below, whole⟩, spelling⟩ := visit?_exact visited
    have plain : ∀ n ∈ below, Path.IsName n := fun n last =>
      proper.named _ inside n (whole ▸ List.mem_append_right _ last)
    have start : d.follow d.start root.components = some top := by
      unfold Disk.locate? at there
      split at there
      · cases there
      · exact there
    rw [← whole, List.drop_left] at spelling
    unfold Disk.locate? at located
    split at located
    · cases located
    · rw [spelling, spelled_components plain, follow_append, start] at located
      rw [← whole]
      exact follow_names located
  · cases member

-- A file that is met is met again.
theorem Grown.walk_met (grown : Grown own d d') (unruled : Unruled own d d') (proper : d.Proper)
    (there : (d.at? root).isSome = true) {met : Path × Place} (member : met ∈ d.walk root) :
    met ∈ d'.walk root := by
  obtain ⟨place, located, directory | ⟨plain, file⟩⟩ := (Disk.at?_isSome root).mp there
  · rw [walk_directory located directory] at member
    rw [walk_directory (grown.locate? located) (grown.dirs place directory)]
    obtain ⟨entry, inside, visited⟩ := List.mem_filterMap.mp member
    obtain ⟨⟨body, rfl⟩, _⟩ := visit?_exact visited
    have present : (d'.bodyAt? met.2).isSome = true := by
      refine grown.files met.2 ?_
      rw [bodyAt?_eq_some.mpr (proper.entry_at inside)]
      rfl
    obtain ⟨now, present⟩ := Option.isSome_iff_exists.mp present
    have listed := entry?_mem (proper.below _ inside) (bodyAt?_eq_some.mp present)
    refine List.mem_filterMap.mpr ⟨_, listed, ?_⟩
    rw [grown.visit? unruled]
    exact visited
  · rw [walk_file located plain file] at member
    rw [walk_file (grown.locate? located) plain (grown.files place file)]
    exact member

-- Of the entries only files count that are not one's own.
theorem visits_others (d : Disk) (root : Path) (place : Place) (entries : List (Place × Entry)) :
    (entries.filterMap (d.visit? root place)).filter (fun met => !own met.2) =
      (entries.filter (isOther own)).filterMap (d.visit? root place) := by
  induction entries with
  | nil => rfl
  | cons entry rest ih =>
    cases visited : d.visit? root place entry with
    | none =>
      rw [List.filterMap_cons_none visited, ih, List.filter_cons]
      split
      · rw [List.filterMap_cons_none visited]
      · rfl
    | some met =>
      obtain ⟨⟨body, rfl⟩, _⟩ := visit?_exact visited
      have same : isOther own (met.2, .file body) = !own met.2 := rfl
      rw [List.filterMap_cons_some visited, List.filter_cons, List.filter_cons, ih, same]
      split
      · rw [List.filterMap_cons_some visited]
      · rfl

theorem Grown.walk_others (grown : Grown own d d') (unruled : Unruled own d d')
    (there : (d.at? root).isSome = true) :
    (d'.walk root).filter (fun met => !own met.2) = (d.walk root).filter fun met => !own met.2 := by
  obtain ⟨place, located, directory | ⟨plain, file⟩⟩ := (Disk.at?_isSome root).mp there
  · rw [walk_directory located directory, walk_directory (grown.locate? located) (grown.dirs place directory),
      visits_others, visits_others, grown.others, funext (grown.visit? unruled root place)]
  · rw [walk_file located plain file, walk_file (grown.locate? located) plain (grown.files place file)]

-- What is made of the files that are met stays the same if nothing is made of one's own.
theorem Grown.walk_filterMap {α : Type} (grown : Grown own d d') (unruled : Unruled own d d')
    (there : (d.at? root).isSome = true) {f g : Path × Place → Option α}
    (same : ∀ met, own met.2 = false → g met = f met)
    (before : ∀ met ∈ d.walk root, own met.2 = true → f met = none)
    (now : ∀ met ∈ d'.walk root, own met.2 = true → g met = none) :
    (d'.walk root).filterMap g = (d.walk root).filterMap f := by
  have kept : ∀ {h : Path × Place → Option α} {mets : List (Path × Place)},
      (∀ met ∈ mets, own met.2 = true → h met = none) →
        mets.filterMap h = (mets.filter fun met => !own met.2).filterMap h := by
    intro h mets none
    rw [List.filterMap_filter]
    refine List.filterMap_congr ?_
    intro met member
    cases mine : own met.2 with
    | true => simp [none met member mine]
    | false => simp
  rw [kept now, kept before, grown.walk_others unruled there]
  refine List.filterMap_congr ?_
  intro met member
  exact same met (by simpa using (List.mem_filter.mp member).2)

end Disk

namespace Discovery

variable {d d' : Disk} {own : Place → Bool} {root : Path}

-- What becomes of a file that is met.
def candidate? (d : Disk) (root : Path) (filter : Option String) (met : Path × Place) :
    Option Candidate := do
  let name ← met.1.fileName?
  let body ← d.bodyAt? met.2
  let relative := (met.1.relativeTo? root).getD met.1
  let wanted := (filter.map (contains relative.text)).getD true
  if isResourceFile name && wanted then some ⟨met.1, relative, name, body⟩ else none

theorem candidates_eq (d : Disk) (root : Path) (filter : Option String) :
    candidates d root filter = (d.walk root).filterMap (candidate? d root filter) := rfl

-- Candidates are named as resources, so a run that names none of its files so leaves them as they are.
theorem candidates_kept (grown : Disk.Grown own d d') (unruled : Disk.Unruled own d d') (proper : d.Proper)
    (proper' : d'.Proper) (there : (d.at? root).isSome = true)
    (named : ∀ place n, own place = true → place.getLast? = some n → isResourceFile n = false)
    (filter : Option String) : candidates d' root filter = candidates d root filter := by
  have unnamed : ∀ {m : Disk}, m.Proper → ∀ met ∈ m.walk root, own met.2 = true →
      ∀ name, met.1.fileName? = some name → isResourceFile name = false :=
    fun proper met member mine name given => named met.2 name mine (Disk.walk_named proper member given)
  have nothing : ∀ {m : Disk}, m.Proper → ∀ met ∈ m.walk root, own met.2 = true →
      candidate? m root filter met = none := by
    rintro m proper ⟨path, place⟩ member mine
    unfold candidate?
    cases given : path.fileName? with
    | none => rfl
    | some name =>
      have other : isResourceFile name = false := unnamed proper _ member mine name given
      cases m.bodyAt? place <;> simp [other]
  rw [candidates_eq, candidates_eq]
  refine grown.walk_filterMap unruled there ?_ (nothing proper) (nothing proper')
  rintro ⟨path, place⟩ other
  unfold candidate?
  rw [grown.bodies place other]

-- The path of a file that is named as a description.
def description? (met : Path × Place) : Option Path :=
  if met.1.extension? == some "yaml" then some met.1 else none

theorem descriptions_eq (d : Disk) (root : Path) :
    descriptions d root = Path.sort ((d.walk root).filterMap description?) := rfl

-- Descriptions stay as they are as long as none of one's own files is met as one.
theorem descriptions_kept (grown : Disk.Grown own d d') (unruled : Disk.Unruled own d d') (proper : d.Proper)
    (there : (d.at? root).isSome = true)
    (unmet : ∀ met ∈ d'.walk root, own met.2 = true → description? met = none) :
    descriptions d' root = descriptions d root := by
  rw [descriptions_eq, descriptions_eq]
  refine congrArg Path.sort (grown.walk_filterMap unruled there (fun _ _ => rfl) ?_ unmet)
  intro met member
  exact unmet met (grown.walk_met unruled proper there member)

-- As many are met exactly if none of one's own files is met as one, when none was one before.
theorem descriptions_length (grown : Disk.Grown own d d') (unruled : Disk.Unruled own d d')
    (there : (d.at? root).isSome = true)
    (unwritten : ∀ met ∈ d.walk root, own met.2 = true → description? met = none) :
    (descriptions d' root).length = (descriptions d root).length ↔
      ∀ met ∈ d'.walk root, own met.2 = true → description? met = none := by
  have halves : ∀ m : Disk, (descriptions m root).length =
      (((m.walk root).filter fun met => own met.2).filterMap description?).length +
        (((m.walk root).filter fun met => !own met.2).filterMap description?).length := by
    intro m
    have split := (List.filter_append_perm (fun met : Path × Place => own met.2) (m.walk root)).filterMap
      description?
    rw [descriptions_eq, Path.sort, List.length_mergeSort, ← split.length_eq, List.filterMap_append,
      List.length_append]
  have mine : ∀ m : Disk, (∀ met ∈ m.walk root, own met.2 = true → description? met = none) ↔
      (((m.walk root).filter fun met => own met.2).filterMap description?).length = 0 := by
    intro m
    rw [List.length_eq_zero_iff, List.filterMap_eq_nil_iff]
    simp only [List.mem_filter, and_imp]
  rw [halves, halves, grown.walk_others unruled there, (mine d).mp unwritten, mine d']
  omega

theorem mem_descriptions {path : Path} (member : path ∈ descriptions d root) :
    ∃ place, (path, place) ∈ d.walk root ∧ description? (path, place) = some path := by
  rw [descriptions_eq, Path.sort, List.mem_mergeSort] at member
  obtain ⟨⟨other, place⟩, met, made⟩ := List.mem_filterMap.mp member
  have same : other = path := by
    unfold description? at made
    split at made
    · exact Option.some.inj made
    · cases made
  rw [same] at met made
  exact ⟨place, met, made⟩

end Discovery

end CallAtlas
