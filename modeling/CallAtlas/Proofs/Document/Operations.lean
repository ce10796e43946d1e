import CallAtlas.Document.Basic
import CallAtlas.Proofs.Data.SortedMap
import Mathlib.Data.List.Basic

namespace CallAtlas

def Paths.operation? (paths : Paths) (path method : String) : Option Operation :=
  (paths.get? path).bind (·.get? method)

section

variable {κ α : Type} [LT κ] [DecidableRel (fun a b : κ => a < b)]

theorem SortedMap.insertNew_filled (m : SortedMap κ α) (key : κ) (value : α) :
    (m.insertNew key value).isEmpty = false := by
  obtain ⟨entries⟩ := m
  cases entries with
  | nil => rfl
  | cons e rest =>
    simp only [insertNew, alter, alterEntries, isEmpty]
    split
    · rfl
    · split <;> rfl

theorem SortedMap.get?_insertNew [DecidableEq κ] [OrderedKey κ] {m : SortedMap κ α} (sorted : m.Sorted) (key : κ)
    (value : α) (other : κ) :
    (m.insertNew key value).get? other = (m.get? other).or (if key = other then some value else none) := by
  have entered := get?_foldl_insertNew (fun _ => key) [value] sorted other
  rw [List.foldl_cons, List.foldl_nil] at entered
  rw [entered, List.find?_singleton]
  simp

end

namespace Paths

-- Paths and methods stand in order, and no path is without a method.
structure Proper (paths : Paths) : Prop where
  sorted : paths.Sorted
  methods : ∀ m ∈ paths.values, m.Sorted
  filled : ∀ m ∈ paths.values, m.isEmpty = false

theorem Proper.empty : Proper {} where
  sorted := SortedMap.sorted_empty
  methods := nofun
  filled := nofun

variable {paths : Paths}

theorem Proper.addNew (proper : paths.Proper) (path method : String) (o : Operation) :
    (paths.addNew path method o).Proper where
  sorted := proper.sorted.alter path _
  methods m member := by
    rcases SortedMap.mem_values_alter member with old | rfl | ⟨old, before, rfl⟩
    · exact proper.methods m old
    · exact SortedMap.sorted_empty.alter method _
    · exact (proper.methods old before).alter method _
  filled m member := by
    rcases SortedMap.mem_values_alter member with old | rfl | ⟨old, before, rfl⟩
    · exact proper.filled m old
    · exact SortedMap.insertNew_filled _ method o
    · exact SortedMap.insertNew_filled _ method o

theorem Proper.methods_getD (proper : paths.Proper) (path : String) : ((paths.get? path).getD {}).Sorted := by
  cases found : paths.get? path with
  | none => exact SortedMap.sorted_empty
  | some m => exact proper.methods m (SortedMap.mem_values_of_get? found)

theorem operation?_eq (paths : Paths) (path method : String) :
    paths.operation? path method = ((paths.get? path).getD {}).get? method := by
  unfold operation?
  cases paths.get? path <;> rfl

-- An operation that is there stays.
theorem Proper.operation?_addNew (proper : paths.Proper) (p m : String) (o : Operation) (path method : String) :
    (paths.addNew p m o).operation? path method =
      (paths.operation? path method).or (if (p, m) = (path, method) then some o else none) := by
  rw [operation?_eq, operation?_eq, Paths.addNew]
  by_cases here : p = path
  · subst here
    rw [SortedMap.get?_alter_self proper.sorted, Option.getD_some, SortedMap.get?_insertNew (proper.methods_getD p)]
    simp
  · rw [SortedMap.get?_alter_of_ne paths _ (Ne.symm here)]
    simp [here]

variable {α : Type} (key : α → String × String) (describe : α → Operation)

def enter (paths : Paths) (a : α) : Paths := paths.addNew (key a).1 (key a).2 (describe a)

theorem Proper.foldl_enter (proper : paths.Proper) (items : List α) :
    (items.foldl (enter key describe) paths).Proper := by
  induction items generalizing paths with
  | nil => exact proper
  | cons a rest ih => exact ih (proper.addNew _ _ _)

theorem Proper.operation?_foldl (proper : paths.Proper) (items : List α) (path method : String) :
    (items.foldl (enter key describe) paths).operation? path method =
      (paths.operation? path method).or ((items.find? (key · = (path, method))).map describe) := by
  induction items generalizing paths with
  | nil => simp
  | cons a rest ih =>
    have next : (enter key describe paths a).Proper := proper.addNew _ _ _
    rw [List.foldl_cons, ih next, enter, proper.operation?_addNew, List.find?_cons, Option.or_assoc]
    by_cases here : key a = (path, method)
    · simp [here]
    · simp [here]

end Paths

structure FirstOccurrences (names tags : List String) : Prop where
  members : ∀ t, t ∈ tags ↔ t ∈ names
  order : tags.Pairwise fun a b => names.idxOf a < names.idxOf b

theorem FirstOccurrences.nodup {names tags : List String} (listed : FirstOccurrences names tags) : tags.Nodup := by
  apply listed.order.imp
  intro a b before same
  subst same
  exact Nat.lt_irrefl _ before

theorem FirstOccurrences.count {names tags : List String} (listed : FirstOccurrences names tags) {name : String}
    (member : name ∈ names) : tags.count name = 1 := by
  rw [listed.nodup.count, if_pos ((listed.members name).mpr member)]

theorem FirstOccurrences.addTag {names tags : List String} (listed : FirstOccurrences names tags) (name : String) :
    FirstOccurrences (names ++ [name]) (Document.addTag tags name) := by
  have old : ∀ t ∈ tags, (names ++ [name]).idxOf t = names.idxOf t := fun t member =>
    List.idxOf_append_of_mem ((listed.members t).mp member)
  have kept : tags.Pairwise fun a b => (names ++ [name]).idxOf a < (names ++ [name]).idxOf b := by
    apply listed.order.imp_of_mem
    intro a b first second before
    rwa [old a first, old b second]
  unfold Document.addTag
  split
  · rename_i there
    have known : name ∈ names := (listed.members name).mp (List.contains_iff_mem.mp there)
    refine ⟨fun t => ?_, kept⟩
    rw [List.mem_append, List.mem_singleton, listed.members]
    exact ⟨.inl, fun given => given.elim id fun same => same ▸ known⟩
  · rename_i absent
    have fresh : name ∉ names := fun member =>
      absent (List.contains_iff_mem.mpr ((listed.members name).mpr member))
    refine ⟨fun t => ?_, ?_⟩
    · rw [List.mem_append, List.mem_append, listed.members]
    · refine List.pairwise_append.mpr ⟨kept, List.pairwise_singleton _ _, ?_⟩
      intro a first b last
      rw [List.mem_singleton.mp last, old a first, List.idxOf_append_of_notMem fresh]
      have inside := List.idxOf_lt_length_of_mem ((listed.members a).mp first)
      omega

theorem FirstOccurrences.foldl_addTag {names tags : List String} (listed : FirstOccurrences names tags) (more : List String) :
    FirstOccurrences (names ++ more) (more.foldl Document.addTag tags) := by
  induction more generalizing names tags with
  | nil => rwa [List.append_nil]
  | cons name rest ih =>
    have next := ih (listed.addTag name)
    rwa [List.append_assoc, List.singleton_append] at next

namespace Document

theorem tagsOf_listed (calls : List Call) : FirstOccurrences (calls.map (·.service.name)) (tagsOf calls) := by
  have start : FirstOccurrences [] [] := ⟨fun _ => Iff.rfl, List.Pairwise.nil⟩
  have whole := start.foldl_addTag (calls.map (·.service.name))
  rwa [List.foldl_map, List.nil_append] at whole

def request (c : Call) : String × String := (c.fullPath, c.method.text)

def described (c : Call) : Operation := ⟨c.service.name, c.operationId⟩

theorem pathsOf_eq (calls : List Call) : pathsOf calls = calls.foldl (Paths.enter request described) {} := rfl

theorem pathsOf_proper (calls : List Call) : (pathsOf calls).Proper :=
  Paths.Proper.empty.foldl_enter request described calls

theorem pathsOf_found (calls : List Call) (path method : String) :
    (pathsOf calls).operation? path method =
      (calls.find? (request · = (path, method))).map described := by
  rw [pathsOf_eq, Paths.Proper.empty.operation?_foldl]
  rfl

-- A document has an operation for each of its calls and for nothing else.
theorem pathsOf_operation? (calls : List Call) (path method : String) :
    ((pathsOf calls).operation? path method).isSome = true ↔
      ∃ c ∈ calls, path = c.fullPath ∧ method = c.method.text := by
  rw [pathsOf_found, Option.isSome_map, List.find?_isSome]
  simp only [request, Prod.mk.injEq, decide_eq_true_eq]
  exact exists_congr fun c => and_congr_right fun _ => and_congr eq_comm eq_comm

-- The first call of a list that makes a request.
structure FirstCall (calls : List Call) (path method : String) (c : Call) : Prop where
  requests : c.fullPath = path ∧ c.method.text = method
  first : ∃ before after, calls = before ++ c :: after ∧
    ∀ b ∈ before, ¬ (b.fullPath = path ∧ b.method.text = method)

theorem firstCall_iff {calls : List Call} {path method : String} {c : Call} :
    FirstCall calls path method c ↔ calls.find? (request · = (path, method)) = some c := by
  rw [List.find?_eq_some_iff_append]
  simp only [request, Prod.mk.injEq, decide_eq_true_eq, Bool.not_eq_true', decide_eq_false_iff_not]
  exact ⟨fun first => ⟨first.requests, first.first⟩, fun found => ⟨found.1, found.2⟩⟩

theorem FirstCall.mem {calls : List Call} {path method : String} {c : Call} (first : FirstCall calls path method c) :
    c ∈ calls := by
  obtain ⟨before, after, whole, _⟩ := first.first
  rw [whole]
  exact List.mem_append_right before List.mem_cons_self

theorem tags_filled {calls : List Call} (filled : calls ≠ []) (resource : String) (pending : Bool)
    (settings : DocumentSettings) (registry : Catalog.Registry) :
    (build resource calls pending settings registry).tags = tagsOf calls := by
  obtain ⟨c, member⟩ := List.exists_mem_of_ne_nil calls filled
  have tag : c.service.name ∈ tagsOf calls :=
    ((tagsOf_listed calls).members _).mpr (List.mem_map_of_mem member)
  have some : (tagsOf calls).isEmpty = false := List.isEmpty_eq_false_iff.mpr (List.ne_nil_of_mem tag)
  change (if (tagsOf calls).isEmpty then _ else _) = _
  rw [some, if_neg Bool.false_ne_true]

-- What a document says of the calls of a resource.
structure Indexes (calls : List Call) (d : Document) : Prop where
  requested : ∀ path method, (d.paths.operation? path method).isSome = true ↔
    ∃ c ∈ calls, path = c.fullPath ∧ method = c.method.text
  described : ∀ path method o, d.paths.operation? path method = some o ↔
    ∃ c, FirstCall calls path method c ∧ o = ⟨c.service.name, c.operationId⟩
  filled : ∀ e ∈ d.paths.entries, e.2.isEmpty = false
  listed : calls ≠ [] → FirstOccurrences (calls.map (·.service.name)) d.tags
  tagged : ∀ path method o, d.paths.operation? path method = some o → d.tags.count o.tag = 1
  served : ∀ c ∈ calls, d.tags.count c.service.name = 1

theorem build_indexes (resource : String) (calls : List Call) (pending : Bool) (settings : DocumentSettings)
    (registry : Catalog.Registry) : Indexes calls (build resource calls pending settings registry) := by
  have described : ∀ path method o, (pathsOf calls).operation? path method = some o ↔
      ∃ c, FirstCall calls path method c ∧ o = ⟨c.service.name, c.operationId⟩ := by
    intro path method o
    rw [pathsOf_found, Option.map_eq_some_iff]
    simp only [firstCall_iff]
    exact exists_congr fun c => and_congr_right fun _ => eq_comm
  have served : ∀ c ∈ calls, (build resource calls pending settings registry).tags.count c.service.name = 1 := by
    intro c member
    rw [tags_filled (List.ne_nil_of_mem member)]
    exact (tagsOf_listed calls).count (List.mem_map_of_mem member)
  constructor
  case requested => exact pathsOf_operation? calls
  case described => exact described
  case filled =>
    intro e member
    exact (pathsOf_proper calls).filled e.2 (List.mem_map_of_mem member)
  case listed =>
    intro filled
    rw [tags_filled filled]
    exact tagsOf_listed calls
  case tagged =>
    intro path method o found
    obtain ⟨c, first, rfl⟩ := (described path method o).mp found
    exact served c first.mem
  case served => exact served

end Document

end CallAtlas
