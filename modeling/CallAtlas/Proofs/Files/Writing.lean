import CallAtlas.Files.Disk
import Mathlib.Data.List.Pairwise

namespace CallAtlas.Disk

open CallAtlas.Text

variable {d d' : Disk}

def replaceAt (at_ : Place) (e : Entry) (old : Place × Entry) : Place × Entry :=
  if old.1 == at_ then (at_, e) else old

theorem lookup_replaceAt_self {entries : List (Place × Entry)} {at_ : Place} (e : Entry)
    (present : (entries.lookup at_).isSome = true) :
    (entries.map (replaceAt at_ e)).lookup at_ = some e := by
  induction entries with
  | nil => cases present
  | cons old rest ih =>
    obtain ⟨place, entry⟩ := old
    by_cases here : place = at_
    · subst here
      simp [replaceAt]
    · have there : (at_ == place) = false := by simpa using Ne.symm here
      have stays : (place == at_) = false := by simpa using here
      simp only [List.lookup_cons, there] at present
      simp only [List.map_cons, replaceAt, stays, Bool.false_eq_true, if_false, List.lookup_cons, there]
      exact ih present

theorem lookup_replaceAt_other {at_ q : Place} (other : q ≠ at_) (entries : List (Place × Entry))
    (e : Entry) : (entries.map (replaceAt at_ e)).lookup q = entries.lookup q := by
  induction entries with
  | nil => rfl
  | cons old rest ih =>
    obtain ⟨place, entry⟩ := old
    have beside : (q == at_) = false := by simpa using other
    by_cases here : place = at_
    · subst here
      simp [replaceAt, List.lookup_cons, beside, ih]
    · have stays : (place == at_) = false := by simpa using here
      simp [replaceAt, List.lookup_cons, stays, ih]

theorem entry?_put {at_ : Place} (inside : at_ ≠ []) (d : Disk) (e : Entry) (q : Place) :
    Disk.entry? (d.put at_ e) q = if q = at_ then some e else d.entry? q := by
  have filled : at_.isEmpty = false := by simpa using inside
  have found : d.existsAt at_ = (d.entries.lookup at_).isSome := by simp [existsAt, entry?, filled]
  by_cases root : q = []
  · subst root
    simp [Ne.symm inside, entry?]
  · have below : q.isEmpty = false := by simpa using root
    unfold put entry?
    simp only [below, Bool.false_eq_true, if_false]
    by_cases same : q = at_
    · subst same
      rw [if_pos rfl]
      split
      · rename_i present
        exact lookup_replaceAt_self e (found ▸ present)
      · rename_i absent
        rw [found, Option.not_isSome_iff_eq_none] at absent
        simp [List.lookup_append, absent]
    · rw [if_neg same]
      have beside : (q == at_) = false := by simpa using same
      split
      · exact lookup_replaceAt_other same d.entries e
      · simp [List.lookup_append, List.lookup_cons, List.lookup_nil, beside]

structure SameTree (d d' : Disk) : Prop where
  start : d'.start = d.start
  dirs : ∀ q, d'.isDirAt q = d.isDirAt q

theorem SameTree.trans {d'' : Disk} (first : SameTree d d') (second : SameTree d' d'') :
    SameTree d d'' :=
  ⟨second.start.trans first.start, fun q => (second.dirs q).trans (first.dirs q)⟩

theorem SameTree.follow (same : SameTree d d') (at_ : Place) (steps : List Path.Component) :
    d'.follow at_ steps = d.follow at_ steps := by
  induction steps generalizing at_ with
  | nil => rfl
  | cons step rest ih => cases step <;> simp only [Disk.follow, same.dirs, ih]

theorem SameTree.locate? (same : SameTree d d') (p : Path) : d'.locate? p = d.locate? p := by
  simp only [Disk.locate?, same.start, same.follow]

theorem write_exact {p : Path} {content : String} (wrote : d.write p content = some d') :
    ∃ place, d.locate? p = some place ∧ namesDirectory p = false ∧ SameTree d d' ∧
      ∀ q, d'.bodyAt? q = if q = place then some (.text content) else d.bodyAt? q := by
  obtain ⟨place, located, rest⟩ := Option.bind_eq_some_iff.mp wrote
  split at rest
  · cases rest
  · rename_i free
    cases rest
    simp only [Bool.or_eq_true, not_or, Bool.not_eq_true] at free
    have inside : place ≠ [] := by
      rintro rfl
      simp [isDirAt, entry?] at free
    refine ⟨place, located, free.2, ⟨?_, ?_⟩, ?_⟩
    · unfold put
      split <;> rfl
    · intro q
      by_cases here : q = place
      · subst here
        rw [free.1]
        simp [isDirAt, entry?_put inside]
      · simp [isDirAt, entry?_put inside, here]
    · intro q
      by_cases here : q = place
      · subst here
        simp [bodyAt?, entry?_put inside]
      · simp [bodyAt?, entry?_put inside, here]

-- Whether a file can be written does not depend on its contents.
theorem write_any {p : Path} {content : String} (wrote : (d.write p content).isSome = true)
    (other : String) : ∃ d', d.write p other = some d' := by
  obtain ⟨d', wrote⟩ := Option.isSome_iff_exists.mp wrote
  obtain ⟨place, located, rest⟩ := Option.bind_eq_some_iff.mp wrote
  unfold write
  simp only [located, Option.bind_eq_bind, Option.bind_some]
  split at rest
  · cases rest
  · rename_i free
    rw [if_neg free]
    exact ⟨_, rfl⟩

theorem read?_located {p : Path} {place : Place} (located : d.locate? p = some place)
    (file : namesDirectory p = false) : d.read? p = d.bodyAt? place := by
  unfold read? at? bodyAt?
  simp only [located, Option.bind_eq_bind, Option.bind_some, file]
  cases d.entry? place with
  | none => rfl
  | some e => cases e <;> rfl

def writeAll (d : Disk) (files : List (Path × String)) : Option Disk :=
  files.foldlM (fun d file => d.write file.1 file.2) d

theorem writeAll_cons {file : Path × String} {rest : List (Path × String)}
    (wrote : d.writeAll (file :: rest) = some d') :
    ∃ middle, d.write file.1 file.2 = some middle ∧ middle.writeAll rest = some d' :=
  Option.bind_eq_some_iff.mp wrote

theorem writeAll_append (d : Disk) (first second : List (Path × String)) :
    d.writeAll (first ++ second) = (d.writeAll first).bind (·.writeAll second) := by
  unfold writeAll
  rw [List.foldlM_append]
  rfl

theorem writeAll_tree {files : List (Path × String)} (wrote : d.writeAll files = some d') :
    SameTree d d' := by
  induction files generalizing d with
  | nil => cases wrote; exact ⟨rfl, fun _ => rfl⟩
  | cons file rest ih =>
    obtain ⟨middle, first, further⟩ := writeAll_cons wrote
    obtain ⟨_, _, _, same, _⟩ := write_exact first
    exact same.trans (ih further)

theorem writeAll_located {files : List (Path × String)} (wrote : d.writeAll files = some d') :
    ∀ file ∈ files, namesDirectory file.1 = false ∧ ∃ place, d'.locate? file.1 = some place := by
  induction files generalizing d with
  | nil => exact nofun
  | cons file rest ih =>
    obtain ⟨middle, first, further⟩ := writeAll_cons wrote
    obtain ⟨place, located, plain, _, _⟩ := write_exact first
    refine List.forall_mem_cons.mpr ⟨⟨plain, place, ?_⟩, ih further⟩
    rwa [(writeAll_tree wrote).locate?]

-- The file that is written last among those at a place.
def lastAt (d : Disk) (files : List (Path × String)) (place : Place) : Option (Path × String) :=
  (files.filter fun file => d.locate? file.1 = some place).getLast?

theorem bodyAt?_writeAll {files : List (Path × String)} (wrote : d.writeAll files = some d')
    (place : Place) :
    d'.bodyAt? place = ((d'.lastAt files place).map fun file => .text file.2).or (d.bodyAt? place) := by
  induction files generalizing d with
  | nil => cases wrote; rfl
  | cons file rest ih =>
    obtain ⟨middle, first, further⟩ := writeAll_cons wrote
    obtain ⟨own, located, _, _, bodies⟩ := write_exact first
    rw [← (writeAll_tree wrote).locate?] at located
    rw [ih further, bodies]
    unfold lastAt
    by_cases here : place = own
    · subst here
      simp only [List.filter_cons, located, decide_true, if_true, List.getLast?_cons]
      cases (rest.filter fun file => d'.locate? file.1 = some place).getLast? <;> rfl
    · have away : ¬ d'.locate? file.1 = some place := by
        rw [located]
        exact fun same => here (Option.some.inj same).symm
      simp [away, here]

-- Each file has its own contents in the end exactly if no later one with other contents is at its
-- place.
theorem writeAll_kept {files : List (Path × String)} (wrote : d.writeAll files = some d') :
    (∀ file ∈ files, d'.read? file.1 = some (.text file.2)) ↔
      files.Pairwise fun a b => d'.locate? a.1 = d'.locate? b.1 → a.2 = b.2 := by
  have located := writeAll_located wrote
  constructor
  · intro kept
    refine List.pairwise_of_forall_mem_list ?_
    intro a a_in b b_in same
    obtain ⟨a_plain, place, a_place⟩ := located a a_in
    obtain ⟨b_plain, _⟩ := located b b_in
    have a_read := kept a a_in
    have b_read := kept b b_in
    rw [read?_located a_place a_plain] at a_read
    rw [read?_located (same ▸ a_place) b_plain, a_read] at b_read
    simpa using b_read
  · intro apart file member
    obtain ⟨plain, place, here⟩ := located file member
    let here_too := files.filter fun file => d'.locate? file.1 = some place
    have inside : file ∈ here_too := List.mem_filter.mpr ⟨member, by simpa using here⟩
    have filled : here_too ≠ [] := List.ne_nil_of_mem inside
    have last : d'.locate? (here_too.getLast filled).1 = some place := by
      simpa using (List.mem_filter.mp (List.getLast_mem filled)).2
    -- The last file at the place may be the file itself.
    have same : file.2 = (here_too.getLast filled).2 :=
      (apart.filter _).rel_getLast_of_rel_getLast_getLast inside (fun _ => rfl) (here.trans last.symm)
    rw [read?_located here plain, bodyAt?_writeAll wrote, lastAt, List.getLast?_eq_some_getLast filled, same]
    rfl

end CallAtlas.Disk
