import CallAtlas.Proofs.Files.Places
import CallAtlas.Proofs.Files.Writing
import Mathlib.Data.List.Induction

namespace CallAtlas

open CallAtlas.Text

theorem Path.componentsOf_named {pieces : List String} (slashless : ∀ piece ∈ pieces, '/' ∉ piece.toList)
    {first : Bool} {n : String} (member : Component.name n ∈ componentsOf pieces first) : IsName n := by
  induction pieces generalizing first with
  | nil => cases member
  | cons piece rest ih =>
    obtain ⟨here, others⟩ := List.forall_mem_cons.mp slashless
    have later : ∀ {start}, Component.name n ∈ componentsOf rest start → IsName n := ih others
    simp only [componentsOf] at member
    split at member
    · exact later member
    · rename_i filled
      split at member
      · split at member
        · exact later (by simpa using member)
        · exact later member
      · rename_i dot
        split at member
        · exact later (by simpa using member)
        · rename_i above
          rcases List.mem_cons.mp member with same | member
          · cases same
            exact ⟨by simpa using filled, by simpa using dot, by simpa using above, here⟩
          · exact later member

theorem Path.components_named {p : Path} {n : String} (member : .name n ∈ p.components) : IsName n := by
  have slashless : ∀ piece ∈ split '/' p.text, '/' ∉ piece.toList := by
    intro piece inside
    obtain ⟨chars, pieces, rfl⟩ := List.mem_map.mp inside
    rw [String.toList_ofList]
    intro slash
    simpa using splitBy_pieces pieces '/' slash
  unfold components at member
  split at member
  · exact componentsOf_named slashless (by simpa using member)
  · exact componentsOf_named slashless member

def Entry.body? : Entry → Option Body
  | .dir => none
  | .file body => some body

namespace Disk

-- Whatever there is lies in a directory, and so does the place that relative paths start from.
structure Tree (d : Disk) : Prop extends d.Proper where
  closed : ∀ entry ∈ d.entries, d.isDirAt entry.1.dropLast = true
  started : d.isDirAt d.start = true

variable {d d' d'' : Disk} {own : Place → Bool} {at_ place q : Place} {n : String}

theorem isDirAt_iff : d.isDirAt q = true ↔ d.entry? q = some .dir := beq_iff_eq

theorem bodyAt?_eq_some {body : Body} : d.bodyAt? q = some body ↔ d.entry? q = some (.file body) := by
  unfold bodyAt?
  cases d.entry? q with
  | none => simp
  | some e => cases e <;> simp

theorem bodyAt?_eq (d : Disk) (q : Place) : d.bodyAt? q = d.entry? q >>= Entry.body? := by
  unfold bodyAt?
  cases d.entry? q with
  | none => rfl
  | some e => cases e <;> rfl

theorem entry?_eq (dirs : d'.isDirAt q = d.isDirAt q) (bodies : d'.bodyAt? q = d.bodyAt? q) :
    d'.entry? q = d.entry? q := by
  rw [bodyAt?_eq, bodyAt?_eq] at bodies
  unfold isDirAt at dirs
  cases left : d'.entry? q with
  | none => cases right : d.entry? q with
    | none => rfl
    | some e => cases e <;> simp [left, right, Entry.body?] at dirs bodies
  | some e => cases right : d.entry? q with
    | none => cases e <;> simp [left, right, Entry.body?] at dirs bodies
    | some e' => cases e <;> cases e' <;> simp_all [Entry.body?]

theorem entry?_mem {e : Entry} (below : q ≠ []) (present : d.entry? q = some e) : (q, e) ∈ d.entries := by
  have filled : q.isEmpty = false := by simpa using below
  unfold entry? at present
  rw [filled, if_neg Bool.false_ne_true] at present
  obtain ⟨before, after, split, _⟩ := List.lookup_eq_some_iff.mp present
  simp [split]

theorem isDirAt_root (d : Disk) : d.isDirAt [] = true := rfl

theorem Tree.parent (tree : d.Tree) {e : Entry} (present : d.entry? q = some e) :
    d.isDirAt q.dropLast = true := by
  by_cases root : q = []
  · subst root
    exact d.isDirAt_root
  · exact tree.closed _ (entry?_mem root present)

theorem Tree.above (tree : d.Tree) (directory : d.isDirAt q = true) : d.isDirAt q.dropLast = true :=
  tree.parent (isDirAt_iff.mp directory)

-- A path leads to a directory, or to a name in one.
theorem Tree.follow_leads (tree : d.Tree) {steps : List Path.Component}
    (named : ∀ n, .name n ∈ steps → Path.IsName n) (start : d.isDirAt at_ = true)
    (followed : d.follow at_ steps = some place) :
    d.isDirAt place = true ∨ ∃ dir n, place = dir ++ [n] ∧ d.isDirAt dir = true ∧ Path.IsName n := by
  -- What is reached before the last step is a directory, or the next step would fail.
  suffices reached : ∀ at_, (d.isDirAt at_ = true ∨
      ∃ dir n, at_ = dir ++ [n] ∧ d.isDirAt dir = true ∧ Path.IsName n) →
      d.follow at_ steps = some place →
      d.isDirAt place = true ∨ ∃ dir n, place = dir ++ [n] ∧ d.isDirAt dir = true ∧ Path.IsName n from
    reached at_ (.inl start) followed
  clear start followed
  induction steps with
  | nil =>
    rintro at_ here followed
    cases followed
    exact here
  | cons step rest ih =>
    have later : ∀ n, .name n ∈ rest → Path.IsName n := fun n inside => named n (List.mem_cons_of_mem _ inside)
    rintro at_ here followed
    cases step with
    | root => exact ih later [] (.inl d.isDirAt_root) followed
    | here =>
      simp only [follow] at followed
      split at followed
      · rename_i directory
        exact ih later at_ (.inl directory) followed
      · cases followed
    | parent =>
      simp only [follow] at followed
      split at followed
      · rename_i directory
        exact ih later _ (.inl (tree.above directory)) followed
      · cases followed
    | name n =>
      simp only [follow] at followed
      split at followed
      · rename_i directory
        exact ih later _ (.inr ⟨at_, n, rfl, directory, named n List.mem_cons_self⟩) followed
      · cases followed

theorem Tree.locate?_leads (tree : d.Tree) {p : Path} (located : d.locate? p = some place) :
    d.isDirAt place = true ∨ ∃ dir n, place = dir ++ [n] ∧ d.isDirAt dir = true ∧ Path.IsName n := by
  unfold locate? at located
  split at located
  · cases located
  · exact tree.follow_leads (fun _ => Path.components_named) tree.started located

-- What there is lies at the end of its names.
theorem Tree.follow_place (tree : d.Tree) (holder : d.isDirAt q.dropLast = true) :
    d.follow [] (q.map .name) = some q := by
  induction q using List.reverseRecOn with
  | nil => rfl
  | append_singleton holders last ih =>
    rw [List.dropLast_concat] at holder
    rw [List.map_append, follow_append, ih (tree.above holder)]
    exact if_pos holder

theorem Tree.located (tree : d.Tree) {e : Entry} (present : d.entry? q = some e) :
    d.locate? (pathOf q) = some q := by
  have filled : ((pathOf q).text == "") = false := by simp [pathOf]
  unfold locate?
  rw [filled, if_neg Bool.false_ne_true, pathOf_components (tree.entry_named present)]
  exact tree.follow_place (tree.parent present)

theorem isDirAt_put (inside : at_ ≠ []) (d : Disk) (e : Entry) (q : Place) :
    (d.put at_ e).isDirAt q = if q = at_ then e == .dir else d.isDirAt q := by
  unfold isDirAt
  rw [entry?_put inside]
  split <;> rfl

theorem bodyAt?_put (inside : at_ ≠ []) (d : Disk) (e : Entry) (q : Place) :
    (d.put at_ e).bodyAt? q = if q = at_ then e.body? else d.bodyAt? q := by
  rw [bodyAt?_eq, bodyAt?_eq, entry?_put inside]
  split <;> rfl

theorem start_put (d : Disk) (at_ : Place) (e : Entry) : (d.put at_ e).start = d.start := by
  unfold put
  split <;> rfl

def keys (d : Disk) : List Place := d.entries.map Prod.fst

theorem existsAt_iff (inside : at_ ≠ []) : d.existsAt at_ = true ↔ at_ ∈ d.keys := by
  have filled : at_.isEmpty = false := by simpa using inside
  rw [existsAt, entry?, filled, if_neg Bool.false_ne_true, keys, List.mem_map]
  constructor
  · intro found
    obtain ⟨e, found⟩ := Option.isSome_iff_exists.mp found
    obtain ⟨before, after, split, _⟩ := List.lookup_eq_some_iff.mp found
    exact ⟨(at_, e), by simp [split], rfl⟩
  · rintro ⟨⟨_, e⟩, member, rfl⟩
    rw [Option.isSome_iff_ne_none, ne_eq, List.lookup_eq_none_iff]
    intro none
    simpa using none _ member

theorem keys_put (d : Disk) (at_ : Place) (e : Entry) :
    (d.put at_ e).keys = if d.existsAt at_ then d.keys else d.keys ++ [at_] := by
  unfold put keys
  split
  · rw [List.map_map]
    refine List.map_congr_left ?_
    intro old _
    dsimp only [Function.comp]
    split
    · rename_i same
      exact (beq_iff_eq.mp same).symm
    · rfl
  · simp

theorem mem_put {e : Entry} {entry : Place × Entry} (member : entry ∈ (d.put at_ e).entries) :
    entry = (at_, e) ∨ entry ∈ d.entries := by
  unfold put at member
  split at member
  · obtain ⟨old, inside, made⟩ := List.mem_map.mp member
    split at made
    · exact .inl made.symm
    · exact .inr (made ▸ inside)
  · rcases List.mem_append.mp member with old | new
    · exact .inr old
    · exact .inl (List.mem_singleton.mp new)

-- Something that is put into a directory, and does not take the place of one.
theorem Tree.put (tree : d.Tree) (directory : d.isDirAt at_ = true) (named : Path.IsName n) {e : Entry}
    (free : d.isDirAt (at_ ++ [n]) = true → e = .dir) : (d.put (at_ ++ [n]) e).Tree := by
  have inside : at_ ++ [n] ≠ [] := List.concat_ne_nil n at_
  have dirs : ∀ q, d.isDirAt q = true → (d.put (at_ ++ [n]) e).isDirAt q = true := by
    intro q there
    rw [isDirAt_put inside]
    split
    · rename_i here
      rw [free (here ▸ there)]
      rfl
    · exact there
  refine ⟨⟨?_, ?_, ?_⟩, ?_, ?_⟩
  · change (d.put (at_ ++ [n]) e).keys.Nodup
    rw [keys_put]
    split
    · exact tree.once
    · rename_i absent
      rw [existsAt_iff inside] at absent
      exact List.nodup_append.mpr ⟨tree.once, List.nodup_singleton _, by
        rintro a member b new rfl
        exact absent (List.mem_singleton.mp new ▸ member)⟩
  · intro entry member
    rcases mem_put member with rfl | old
    · exact inside
    · exact tree.below entry old
  · intro entry member
    rcases mem_put member with rfl | old
    · exact List.forall_mem_append.mpr
        ⟨tree.entry_named (isDirAt_iff.mp directory), List.forall_mem_singleton.mpr named⟩
    · exact tree.named entry old
  · intro entry member
    rcases mem_put member with rfl | old
    · rw [List.dropLast_concat]
      exact dirs _ directory
    · exact dirs _ (tree.closed entry old)
  · rw [start_put]
    exact dirs _ tree.started

-- Files that are not one's own.
def isOther (own : Place → Bool) : Place × Entry → Bool
  | (q, .file _) => !own q
  | (_, .dir) => false

structure Grown (own : Place → Bool) (d d' : Disk) : Prop where
  start : d'.start = d.start
  dirs : ∀ q, d.isDirAt q = true → d'.isDirAt q = true
  files : ∀ q, (d.bodyAt? q).isSome = true → (d'.bodyAt? q).isSome = true
  bodies : ∀ q, own q = false → d'.bodyAt? q = d.bodyAt? q
  others : d'.entries.filter (isOther own) = d.entries.filter (isOther own)

theorem Grown.refl (own : Place → Bool) (d : Disk) : Grown own d d :=
  ⟨rfl, fun _ there => there, fun _ there => there, fun _ _ => rfl, rfl⟩

theorem Grown.trans (first : Grown own d d') (second : Grown own d' d'') : Grown own d d'' where
  start := second.start.trans first.start
  dirs q there := second.dirs q (first.dirs q there)
  files q there := second.files q (first.files q there)
  bodies q other := (second.bodies q other).trans (first.bodies q other)
  others := second.others.trans first.others

theorem others_replaced (hidden : ∀ e, isOther own (at_, e) = false) (e : Entry)
    (entries : List (Place × Entry)) :
    (entries.map (replaceAt at_ e)).filter (isOther own) = entries.filter (isOther own) := by
  induction entries with
  | nil => rfl
  | cons old rest ih =>
    obtain ⟨place, entry⟩ := old
    rw [List.map_cons, List.filter_cons, List.filter_cons, ih]
    unfold replaceAt
    by_cases here : place = at_
    · subst here
      simp [hidden]
    · have stays : (place == at_) = false := by simpa using here
      simp [stays]

-- A directory is made where there is nothing.
theorem Grown.made (inside : at_ ≠ []) (absent : d.entry? at_ = none) : Grown own d (d.put at_ .dir) where
  start := start_put d at_ .dir
  dirs q there := by
    rw [isDirAt_put inside]
    split
    · rfl
    · exact there
  files q there := by
    rw [bodyAt?_put inside]
    split
    · rename_i here
      rw [here, bodyAt?_eq, absent] at there
      cases there
    · exact there
  bodies q _ := by
    rw [bodyAt?_put inside]
    split
    · rename_i here
      rw [here, bodyAt?_eq, absent]
      rfl
    · rfl
  others := by
    have nothing : d.existsAt at_ = false := by rw [existsAt, absent]; rfl
    rw [put, nothing, if_neg Bool.false_ne_true]
    exact (List.filter_append ..).trans (List.append_nil _)

-- A file of one's own is written where there is no directory.
theorem Grown.wrote (inside : at_ ≠ []) (mine : own at_ = true) (free : d.isDirAt at_ = false)
    (body : Body) : Grown own d (d.put at_ (.file body)) where
  start := start_put d at_ _
  dirs q there := by
    rw [isDirAt_put inside]
    split
    · rename_i here
      rw [here, free] at there
      cases there
    · exact there
  files q there := by
    rw [bodyAt?_put inside]
    split
    · rfl
    · exact there
  bodies q other := by
    rw [bodyAt?_put inside]
    split
    · rename_i here
      rw [here, mine] at other
      cases other
    · rfl
  others := by
    have hidden : ∀ e, isOther own (at_, e) = false := by
      intro e
      cases e with
      | dir => rfl
      | file body => rw [isOther, mine]; rfl
    unfold put
    split
    · exact others_replaced hidden _ d.entries
    · exact (List.filter_append ..).trans (by simp [hidden])

-- Also when a file is in the way of a directory.
theorem makeAlong_grown (own : Place → Bool) {steps : List Path.Component}
    (left : d.makeAlong at_ steps = .ok d' ∨ d.makeAlong at_ steps = .error d') : Grown own d d' := by
  induction steps generalizing d at_ with
  | nil =>
    rcases left with made | refused
    · cases made
      exact .refl own _
    · cases refused
  | cons step rest ih =>
    cases step with
    | name n =>
      simp only [makeAlong] at left
      cases found : d.entry? (at_ ++ [n]) with
      | none =>
        rw [found] at left
        exact (Grown.made (List.concat_ne_nil n at_) found).trans (ih left)
      | some e =>
        rw [found] at left
        cases e with
        | dir => exact ih left
        | file body =>
          rcases left with made | refused
          · cases made
          · cases refused
            exact .refl own _
    | _ => exact ih left

theorem makeAlong_tree (tree : d.Tree) {steps : List Path.Component}
    (named : ∀ n, .name n ∈ steps → Path.IsName n) (start : d.isDirAt at_ = true)
    (made : d.makeAlong at_ steps = .ok d') : d'.Tree := by
  induction steps generalizing d at_ with
  | nil =>
    cases made
    exact tree
  | cons step rest ih =>
    have later : ∀ n, .name n ∈ rest → Path.IsName n := fun n inside => named n (List.mem_cons_of_mem _ inside)
    cases step with
    | root => exact ih tree later d.isDirAt_root made
    | here => exact ih tree later start made
    | parent => exact ih tree later (tree.above start) made
    | name n =>
      simp only [makeAlong] at made
      cases found : d.entry? (at_ ++ [n]) with
      | none =>
        rw [found] at made
        have next : (d.put (at_ ++ [n]) .dir).isDirAt (at_ ++ [n]) = true := by
          rw [isDirAt_put (List.concat_ne_nil n at_), if_pos rfl]
          rfl
        exact ih (tree.put start (named n List.mem_cons_self) fun _ => rfl) later next made
      | some e =>
        rw [found] at made
        cases e with
        | dir => exact ih tree later (isDirAt_iff.mpr found) made
        | file body => cases made

theorem Tree.makeDirectories (tree : d.Tree) {p : Path} (made : d.makeDirectories p = .ok d') : d'.Tree :=
  makeAlong_tree tree (fun _ => Path.components_named) tree.started made

-- Directories that were made are there when they are made again.
theorem makeAlong_again {steps : List Path.Component} (made : d.makeAlong at_ steps = .ok d')
    (kept : ∀ q, d'.isDirAt q = true → d''.isDirAt q = true) : d''.makeAlong at_ steps = .ok d'' := by
  induction steps generalizing d at_ with
  | nil => rfl
  | cons step rest ih =>
    cases step with
    | name n =>
      have passed : ∀ {m : Disk}, m.isDirAt (at_ ++ [n]) = true → m.makeAlong (at_ ++ [n]) rest = .ok d' →
          d''.makeAlong at_ (.name n :: rest) = .ok d'' := by
        intro m directory further
        have there := kept _ ((makeAlong_grown (fun _ => false) (.inl further)).dirs _ directory)
        simp only [makeAlong, isDirAt_iff.mp there]
        exact ih further
      simp only [makeAlong] at made
      cases found : d.entry? (at_ ++ [n]) with
      | none =>
        rw [found] at made
        refine passed ?_ made
        rw [isDirAt_put (List.concat_ne_nil n at_), if_pos rfl]
        rfl
      | some e =>
        rw [found] at made
        cases e with
        | dir => exact passed (isDirAt_iff.mpr found) made
        | file body => cases made
    | _ => exact ih made

-- Directories are made under the names in the path, and no others.
theorem makeAlong_other {steps : List Path.Component} (made : d.makeAlong at_ steps = .ok d')
    (other : .name n ∉ steps) (dir : Place) : d'.existsAt (dir ++ [n]) = d.existsAt (dir ++ [n]) := by
  induction steps generalizing d at_ with
  | nil =>
    cases made
    rfl
  | cons step rest ih =>
    obtain ⟨first, later⟩ := not_or.mp (mt List.mem_cons.mpr other)
    cases step with
    | name m =>
      simp only [makeAlong] at made
      cases found : d.entry? (at_ ++ [m]) with
      | none =>
        rw [found] at made
        have apart : dir ++ [n] ≠ at_ ++ [m] := by
          intro same
          have names := List.append_inj_right' same rfl
          exact first (by rw [List.singleton_inj.mp names])
        rw [ih made later, existsAt, existsAt, entry?_put (List.concat_ne_nil m at_), if_neg apart]
      | some e =>
        rw [found] at made
        cases e with
        | dir => exact ih made later
        | file body => cases made
    | _ => exact ih made later

theorem makeDirectories_again {p : Path} (made : d.makeDirectories p = .ok d') (grown : Grown own d' d'') :
    d''.makeDirectories p = .ok d'' := by
  have start : d''.start = d.start := grown.start.trans (makeAlong_grown own (.inl made)).start
  unfold makeDirectories at made ⊢
  rw [start]
  exact makeAlong_again made grown.dirs

theorem Tree.write (tree : d.Tree) {p : Path} {content : String} (wrote : d.write p content = some d')
    (mine : ∀ place, d.locate? p = some place → own place = true) : d'.Tree ∧ Grown own d d' := by
  obtain ⟨place, located, rest⟩ := Option.bind_eq_some_iff.mp wrote
  split at rest
  · cases rest
  · rename_i free
    cases rest
    simp only [Bool.or_eq_true, not_or, Bool.not_eq_true] at free
    rcases tree.locate?_leads located with directory | ⟨dir, n, rfl, directory, named⟩
    · rw [free.1] at directory
      cases directory
    · refine ⟨tree.put directory named ?_, .wrote (List.concat_ne_nil n dir) (mine _ located) free.1 _⟩
      intro occupied
      rw [free.1] at occupied
      cases occupied

theorem Tree.writeAll (tree : d.Tree) {files : List (Path × String)} (wrote : d.writeAll files = some d')
    (mine : ∀ file ∈ files, ∀ place, d.locate? file.1 = some place → own place = true) :
    d'.Tree ∧ Grown own d d' := by
  induction files generalizing d with
  | nil =>
    cases wrote
    exact ⟨tree, .refl own _⟩
  | cons file rest ih =>
    obtain ⟨first, others⟩ := List.forall_mem_cons.mp mine
    obtain ⟨middle, early, late⟩ := writeAll_cons wrote
    obtain ⟨whole, grown⟩ := tree.write early first
    obtain ⟨_, _, _, same, _⟩ := write_exact early
    have later : ∀ file ∈ rest, ∀ place, middle.locate? file.1 = some place → own place = true := by
      intro file inside place located
      exact others file inside place ((same.locate? file.1).symm.trans located)
    obtain ⟨ended, further⟩ := ih whole late later
    exact ⟨ended, grown.trans further⟩

-- Whether a file can be written is seen on the directories.
theorem write_runs {e : Disk} {p : Path} {content : String} (same : SameTree d e)
    (wrote : d.write p content = some d') : ∃ e', e.write p content = some e' := by
  obtain ⟨place, located, rest⟩ := Option.bind_eq_some_iff.mp wrote
  split at rest
  · cases rest
  · rename_i free
    unfold Disk.write
    rw [same.locate?, located, Option.bind_eq_bind, Option.bind_some, same.dirs, if_neg free]
    exact ⟨_, rfl⟩

theorem writeAll_runs {e : Disk} {files : List (Path × String)} (same : SameTree d e)
    (wrote : d.writeAll files = some d') : ∃ e', e.writeAll files = some e' := by
  induction files generalizing d e with
  | nil => exact ⟨e, rfl⟩
  | cons file rest ih =>
    obtain ⟨middle, early, late⟩ := writeAll_cons wrote
    obtain ⟨middle', early'⟩ := write_runs same early
    obtain ⟨_, _, _, tree, _⟩ := write_exact early
    obtain ⟨_, _, _, tree', _⟩ := write_exact early'
    have middles : SameTree middle middle' :=
      ⟨by rw [tree'.start, same.start, tree.start], fun q => by rw [tree'.dirs, same.dirs, tree.dirs]⟩
    obtain ⟨e', further⟩ := ih middles late
    refine ⟨e', ?_⟩
    rw [writeAll, List.foldlM_cons, early']
    exact further

-- Files that are there are written in place.
theorem keys_writeAll {e : Disk} {files : List (Path × String)} (wrote : d.writeAll files = some e)
    (there : ∀ file ∈ files, ∀ place, d.locate? file.1 = some place → (d.bodyAt? place).isSome = true) :
    e.keys = d.keys := by
  induction files generalizing d with
  | nil =>
    cases wrote
    rfl
  | cons file rest ih =>
    obtain ⟨first, others⟩ := List.forall_mem_cons.mp there
    obtain ⟨middle, early, late⟩ := writeAll_cons wrote
    obtain ⟨place, located, _, same, bodies⟩ := write_exact early
    have further : e.keys = middle.keys := by
      refine ih late ?_
      intro file inside place' located'
      rw [bodies]
      split
      · rfl
      · exact others file inside place' ((same.locate? file.1).symm.trans located')
    have inside : place ∈ d.keys ∨ place = [] := by
      obtain ⟨body, present⟩ := Option.isSome_iff_exists.mp (first place located)
      by_cases root : place = []
      · exact .inr root
      · refine .inl ((existsAt_iff root).mp ?_)
        rw [existsAt, bodyAt?_eq_some.mp present]
        rfl
    obtain ⟨place', located', rest⟩ := Option.bind_eq_some_iff.mp early
    cases located.symm.trans located'
    split at rest
    · cases rest
    · rename_i free
      cases rest
      have present : d.existsAt place = true := by
        rcases inside with listed | rfl
        · refine (existsAt_iff ?_).mpr listed
          rintro rfl
          simp [isDirAt_root] at free
        · rfl
      rw [further, keys_put, if_pos present]

theorem Proper.ext {e : Disk} (proper : d.Proper) (proper' : e.Proper) (start : d.start = e.start)
    (keys : d.keys = e.keys) (same : ∀ q, d.entry? q = e.entry? q) : d = e := by
  have entries : d.entries = e.entries := by
    refine List.ext_getElem ?_ ?_
    · simpa [Disk.keys] using congrArg List.length keys
    · intro i first second
      have places : d.entries[i].1 = e.entries[i].1 := by
        have := congrArg (·[i]?) keys
        simpa [Disk.keys, first, second] using this
      have left : d.entry? d.entries[i].1 = some d.entries[i].2 := proper.entry_at (List.getElem_mem first)
      have right : e.entry? e.entries[i].1 = some e.entries[i].2 := proper'.entry_at (List.getElem_mem second)
      rw [same, places, right] at left
      exact Prod.ext places (Option.some.inj left).symm
  cases d
  cases e
  cases entries
  cases start
  rfl

-- The same files written once more change nothing.
theorem Tree.writeAll_again (tree : d.Tree) {files : List (Path × String)}
    (wrote : d.writeAll files = some d') : d'.writeAll files = some d' := by
  have same := writeAll_tree wrote
  obtain ⟨tree', _⟩ := @Tree.writeAll d d' (fun _ => true) tree files wrote fun _ _ _ _ => rfl
  obtain ⟨e, again⟩ := writeAll_runs same wrote
  obtain ⟨tree'', _⟩ := @Tree.writeAll d' e (fun _ => true) tree' files again fun _ _ _ _ => rfl
  have same' := writeAll_tree again
  have bodies : ∀ q, e.bodyAt? q = d'.bodyAt? q := by
    intro q
    have last : e.lastAt files q = d'.lastAt files q := by
      unfold lastAt
      simp only [same'.locate?]
    rw [bodyAt?_writeAll again, bodyAt?_writeAll wrote, last]
    cases d'.lastAt files q <;> rfl
  have there : ∀ file ∈ files, ∀ place, d'.locate? file.1 = some place →
      (d'.bodyAt? place).isSome = true := by
    intro file member place located
    have inside : file ∈ files.filter fun file => d'.locate? file.1 = some place :=
      List.mem_filter.mpr ⟨member, by simpa using located⟩
    rw [bodyAt?_writeAll wrote, lastAt, List.getLast?_eq_some_getLast (List.ne_nil_of_mem inside)]
    rfl
  rw [again, tree''.toProper.ext tree'.toProper same'.start (keys_writeAll again there) fun q =>
    entry?_eq (same'.dirs q) (bodies q)]

end Disk

end CallAtlas
