import CallAtlas.Data.Readable
import CallAtlas.Proofs.Data.SortedMap
import Mathlib.Data.List.Forall2

namespace CallAtlas

variable {α β : Type}

theorem mapM_eq_some {f : α → Option β} {xs : List α} {ys : List β} :
    xs.mapM f = some ys ↔ List.Forall₂ (fun x y => f x = some y) xs ys := by
  induction xs generalizing ys with
  | nil =>
    rw [List.mapM_nil, List.forall₂_nil_left_iff]
    exact Option.some_inj.trans eq_comm
  | cons x rest ih =>
    rw [List.mapM_cons, List.forall₂_cons_left_iff]
    constructor
    · intro found
      obtain ⟨y, here, found⟩ := Option.bind_eq_some_iff.mp found
      obtain ⟨others, later, found⟩ := Option.bind_eq_some_iff.mp found
      cases found
      exact ⟨y, others, here, ih.mp later, rfl⟩
    · rintro ⟨y, others, here, later, rfl⟩
      rw [here, ih.mpr later]
      rfl

theorem mapM_isSome {f : α → Option β} {xs : List α} :
    (xs.mapM f).isSome = true ↔ ∀ x ∈ xs, (f x).isSome = true := by
  induction xs with
  | nil => simp
  | cons x rest ih =>
    rw [List.mapM_cons, List.forall_mem_cons, ← ih]
    cases f x with
    | none => simp
    | some y => cases rest.mapM f <;> simp

inductive LastEntry : List (String × α) → String → α → Prop where
  | here {key : String} {a : α} {rest : List (String × α)} :
      (∀ e ∈ rest, e.1 ≠ key) → LastEntry ((key, a) :: rest) key a
  | behind {key : String} {a : α} {e : String × α} {rest : List (String × α)} :
      LastEntry rest key a → LastEntry (e :: rest) key a

theorem LastEntry.mem {entries : List (String × α)} {key : String} {a : α} (last : LastEntry entries key a) :
    (key, a) ∈ entries := by
  induction last with
  | here => exact List.mem_cons_self
  | behind _ ih => exact List.mem_cons_of_mem _ ih

theorem lastEntry_cons {e : String × α} {rest : List (String × α)} {key : String} {a : α} :
    LastEntry (e :: rest) key a ↔ LastEntry rest key a ∨ e = (key, a) ∧ ∀ f ∈ rest, f.1 ≠ key := by
  constructor
  · intro last
    cases last with
    | here apart => exact .inr ⟨rfl, apart⟩
    | behind later => exact .inl later
  · rintro (later | ⟨rfl, apart⟩)
    · exact .behind later
    · exact .here apart

theorem lastEntry_none {entries : List (String × α)} {key : String} :
    (∀ a, ¬ LastEntry entries key a) ↔ ∀ e ∈ entries, e.1 ≠ key := by
  induction entries with
  | nil => exact iff_of_true (fun _ => nofun) (by simp)
  | cons e rest ih =>
    obtain ⟨k, v⟩ := e
    simp only [lastEntry_cons, not_or, forall_and, ih, List.forall_mem_cons, Prod.mk.injEq, not_and]
    constructor
    · rintro ⟨later, here⟩
      exact ⟨fun same => here v ⟨same, rfl⟩ later, later⟩
    · rintro ⟨here, later⟩
      exact ⟨later, fun _ same => absurd same.1 here⟩

namespace SortedMap

theorem get?_foldl_insert_last {entries : List (String × α)} {m : SortedMap String α} {key : String} {a : α} :
    (entries.foldl (fun m e => m.insert e.1 e.2) m).get? key = some a ↔
      LastEntry entries key a ∨ (∀ e ∈ entries, e.1 ≠ key) ∧ m.get? key = some a := by
  induction entries generalizing m with
  | nil =>
    have none : ¬ LastEntry ([] : List (String × α)) key a := nofun
    simp [none]
  | cons e rest ih =>
    obtain ⟨k, v⟩ := e
    rw [List.foldl_cons, ih, lastEntry_cons, List.forall_mem_cons, Prod.mk.injEq]
    by_cases same : k = key
    · subst same
      rw [get?_insert_self, Option.some_inj]
      simp [and_comm]
    · rw [get?_insert_of_ne m v (Ne.symm same)]
      simp [same]

theorem get?_ofList {entries : List (String × α)} {key : String} {a : α} :
    (ofList entries).get? key = some a ↔ LastEntry entries key a := by
  have empty : (SortedMap.empty : SortedMap String α).get? key ≠ some a := nofun
  rw [ofList, get?_foldl_insert_last, or_iff_left fun known => empty known.2]

theorem ofList_sorted (entries : List (String × α)) : (ofList entries).Sorted :=
  sorted_empty.foldl_insert entries

end SortedMap

namespace Readable

variable {ν : Type} [Readable ν] {read : ν → Option α} {v : ν} {m : SortedMap String α}

theorem map?_sorted (found : map? read v = some m) : m.Sorted := by
  obtain ⟨_, _, found⟩ := Option.bind_eq_some_iff.mp found
  obtain ⟨entries, _, found⟩ := Option.bind_eq_some_iff.mp found
  cases found
  exact SortedMap.ofList_sorted entries

omit [Readable ν] in
theorem lastEntry_read {entries : List (String × ν)} {values : List (String × α)} {key : String} {a : α}
    (gathered : List.Forall₂ (fun e f => (read e.2).map (e.1, ·) = some f) entries values) :
    LastEntry values key a ↔ ∃ w, LastEntry entries key w ∧ read w = some a := by
  induction gathered with
  | nil => exact ⟨nofun, nofun⟩
  | @cons e f entries values here later ih =>
    obtain ⟨b, known, rfl⟩ := Option.map_eq_some_iff.mp here
    have keys : (∀ f ∈ values, f.1 ≠ key) ↔ ∀ e ∈ entries, e.1 ≠ key := by
      clear ih
      induction later with
      | nil => simp
      | @cons e f _ _ here _ ih =>
        obtain ⟨_, _, rfl⟩ := Option.map_eq_some_iff.mp here
        rw [List.forall_mem_cons, List.forall_mem_cons, ih]
    obtain ⟨k, w⟩ := e
    rw [lastEntry_cons, ih, keys]
    simp only [lastEntry_cons, or_and_right, exists_or, Prod.mk.injEq]
    refine or_congr_right ⟨?_, ?_⟩
    · rintro ⟨⟨rfl, rfl⟩, apart⟩
      exact ⟨w, ⟨⟨rfl, rfl⟩, apart⟩, known⟩
    · rintro ⟨_, ⟨⟨rfl, rfl⟩, apart⟩, same⟩
      exact ⟨⟨rfl, Option.some_inj.mp (known.symm.trans same)⟩, apart⟩

theorem map?_get? (found : map? read v = some m) {key : String} {a : α} :
    m.get? key = some a ↔ ∃ entries w, entries? v = some entries ∧ LastEntry entries key w ∧ read w = some a := by
  obtain ⟨entries, opened, found⟩ := Option.bind_eq_some_iff.mp found
  obtain ⟨values, gathered, found⟩ := Option.bind_eq_some_iff.mp found
  cases found
  rw [SortedMap.get?_ofList, lastEntry_read (mapM_eq_some.mp gathered), opened]
  simp

theorem map?_mem (found : map? read v = some m) {key : String} {a : α} :
    (key, a) ∈ m.entries ↔ ∃ entries w, entries? v = some entries ∧ LastEntry entries key w ∧ read w = some a := by
  rw [← SortedMap.get?_eq_some (map?_sorted found).keys_nodup, map?_get? found]

end Readable

end CallAtlas
