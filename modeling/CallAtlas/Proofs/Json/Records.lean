import CallAtlas.Json.Value
import CallAtlas.Proofs.Data.Readable

namespace CallAtlas.Json.Value

def ofNamed (entries : List (String × Value)) : Value := .record (entries.map fun e => (some e.1, e.2))

theorem namedEntries_exact {entries : List (Option String × Value)} {named : List (String × Value)} :
    namedEntries entries = some named ↔ entries = named.map fun e => (some e.1, e.2) := by
  rw [namedEntries, mapM_eq_some]
  constructor
  · intro given
    induction given with
    | nil => rfl
    | @cons e f _ _ here _ ih =>
      obtain ⟨key, w⟩ := e
      obtain ⟨_, same, rfl⟩ := Option.map_eq_some_iff.mp here
      rw [List.map_cons, ← ih]
      exact congrArg (fun k => (k, w) :: _) same
  · rintro rfl
    rw [List.forall₂_map_left_iff, List.forall₂_same]
    exact fun _ _ => rfl

theorem ofNamed_inj {entries entries' : List (String × Value)} (same : ofNamed entries = ofNamed entries') :
    entries = entries' :=
  Option.some_inj.mp ((namedEntries_exact.mpr rfl).symm.trans (namedEntries_exact.mpr (Value.record.inj same)))

theorem entries?_exact {v : Value} {named : List (String × Value)} :
    Readable.entries? v = some named ↔ v = ofNamed named := by
  cases v with
  | record entries => exact namedEntries_exact.trans (by rw [ofNamed, record.injEq])
  | _ => exact ⟨nofun, nofun⟩

def IsMap (fits : Value → Prop) (v : Value) : Prop := ∃ entries, v = ofNamed entries ∧ ∀ e ∈ entries, fits e.2

def Entry (v : Value) (key : String) (w : Value) : Prop := ∃ entries, v = ofNamed entries ∧ LastEntry entries key w

theorem IsMap.entry {fits : Value → Prop} {v w : Value} {key : String} (shape : IsMap fits v) (entry : Entry v key w) :
    fits w := by
  obtain ⟨entries, rfl, all⟩ := shape
  obtain ⟨others, same, last⟩ := entry
  obtain rfl := ofNamed_inj same
  exact all _ last.mem

section

variable {α : Type} {read : Value → Option α} {v : Value}

theorem map?_isSome : (Readable.map? read v).isSome = true ↔ IsMap (fun w => (read w).isSome = true) v := by
  cases opened : Readable.entries? v with
  | none =>
    have shape : ¬ IsMap (fun w => (read w).isSome = true) v := by
      rintro ⟨entries, shape, _⟩
      rw [entries?_exact.mpr shape] at opened
      cases opened
    simp [Readable.map?, opened, shape]
  | some entries =>
    have shape := entries?_exact.mp opened
    have gathered : (Readable.map? read v).isSome =
        (entries.mapM fun e => (read e.2).map (e.1, ·)).isSome := by
      simp only [Readable.map?, opened, Option.bind_eq_bind, Option.bind_some]
      cases entries.mapM fun e => (read e.2).map (e.1, ·) <;> rfl
    rw [gathered, mapM_isSome]
    simp only [Option.isSome_map]
    constructor
    · exact fun fits => ⟨entries, shape, fits⟩
    · rintro ⟨others, same, fits⟩
      rw [entries?_exact.mpr same] at opened
      cases opened
      exact fits

theorem map?_entry {m : SortedMap String α} (found : Readable.map? read v = some m) {key : String} {a : α} :
    (key, a) ∈ m.entries ↔ ∃ w, Entry v key w ∧ read w = some a := by
  rw [Readable.map?_mem found]
  simp only [entries?_exact]
  constructor
  · rintro ⟨entries, w, shape, last, known⟩
    exact ⟨w, ⟨entries, shape, last⟩, known⟩
  · rintro ⟨w, ⟨entries, shape, last⟩, known⟩
    exact ⟨entries, w, shape, last, known⟩

end

-- The value of a field; a list has the fields in order.
inductive Has : Value → Nat → String → Value → Prop where
  | named {entries : List (String × Value)} {place : Nat} {key : String} {w : Value} :
      (key, w) ∈ entries → Has (ofNamed entries) place key w
  | placed {items : List Value} {place : Nat} {key : String} {w : Value} :
      items[place]? = some w → Has (.list items) place key w

theorem has_named {entries : List (String × Value)} {place : Nat} {key : String} {w : Value} :
    Has (ofNamed entries) place key w ↔ (key, w) ∈ entries := by
  refine ⟨fun has => ?_, .named⟩
  generalize whole : ofNamed entries = v at has
  cases has with
  | named member => rwa [ofNamed_inj whole]
  | placed => cases whole

inductive IsRecord (keys : List String) : Value → Prop where
  | named {entries : List (String × Value)} :
      (∀ key ∈ keys, (entries.filter (·.1 == key)).length ≤ 1) → IsRecord keys (ofNamed entries)
  | placed {items : List Value} : items.length ≤ keys.length → IsRecord keys (.list items)

def optionalFields (keys : List String) : List Field := keys.map fun key => ⟨[key], true⟩

section

variable {entries : List (String × Value)} {key : String} {keys : List String} {v : Value}

theorem pickField_isSome :
    (Readable.pickField entries ⟨[key], true⟩).isSome = true ↔ (entries.filter (·.1 == key)).length ≤ 1 := by
  have keyed : (fun e : String × Value => [key].contains e.1) = fun e => e.1 == key := by
    funext e
    rw [List.contains_cons, List.contains_nil, Bool.or_false]
  unfold Readable.pickField
  dsimp only
  rw [keyed]
  generalize entries.filter (fun e => e.1 == key) = named
  rcases named with _ | ⟨e, _ | ⟨f, rest⟩⟩
  · simp
  · simp
  · simp

theorem pickField_mem {w? : Option Value} (found : Readable.pickField entries ⟨[key], true⟩ = some w?) (w : Value) :
    w? = some w ↔ (key, w) ∈ entries := by
  have member : (key, w) ∈ entries ↔ (key, w) ∈ entries.filter fun e => [key].contains e.1 := by simp
  rw [member]
  unfold Readable.pickField at found
  dsimp only at found
  split at found
  · rename_i alone
    cases found
    rw [alone]
    exact ⟨nofun, nofun⟩
  · rename_i e alone
    cases found
    obtain ⟨k, u⟩ := e
    have inside : (k, u) ∈ entries.filter fun e => [key].contains e.1 := by
      rw [alone]
      exact List.mem_singleton_self _
    have same : k = key := by simpa using (List.mem_filter.mp inside).2
    rw [alone, List.mem_singleton, Option.some_inj, Prod.mk.injEq, eq_comm]
    exact ⟨fun here => ⟨same.symm, here⟩, And.right⟩
  · cases found

theorem alignFields_eq (keys : List String) (items : List Value) :
    Readable.alignFields (optionalFields keys) items = some ((List.range keys.length).map (items[·]?)) := by
  induction keys generalizing items with
  | nil => rfl
  | cons key rest ih =>
    have later := fun items : List Value => congrArg (Option.map (items.head? :: ·)) (ih items.tail)
    rw [List.length_cons, List.range_succ_eq_map, List.map_cons, List.map_map]
    cases items with
    | nil => exact later []
    | cons v items => exact later (v :: items)

theorem record?_isSome : (Readable.record? (optionalFields keys) v).isSome = true ↔ IsRecord keys v := by
  cases v with
  | record given =>
    have picked : ∀ entries : List (String × Value), (Readable.pickFields (optionalFields keys) entries).isSome = true ↔
        ∀ key ∈ keys, (entries.filter (·.1 == key)).length ≤ 1 := by
      intro entries
      rw [Readable.pickFields, mapM_isSome, optionalFields, List.forall_mem_map]
      simp only [pickField_isSome]
    change (namedEntries given >>= Readable.pickFields (optionalFields keys)).isSome = true ↔ _
    constructor
    · intro found
      obtain ⟨values, found⟩ := Option.isSome_iff_exists.mp found
      obtain ⟨entries, named, found⟩ := Option.bind_eq_some_iff.mp found
      rw [namedEntries_exact.mp named]
      exact .named ((picked entries).mp (Option.isSome_of_mem found))
    · intro shape
      cases shape with
      | @named entries once =>
        rw [namedEntries_exact.mpr rfl]
        exact (picked entries).mpr once
  | list items =>
    change (if items.length ≤ (optionalFields keys).length then _ else none).isSome = true ↔ _
    rw [alignFields_eq, optionalFields, List.length_map]
    split
    · rename_i short
      exact ⟨fun _ => .placed short, fun _ => rfl⟩
    · rename_i long
      refine ⟨nofun, fun shape => ?_⟩
      cases shape with
      | placed short => exact absurd short long
  | _ => exact ⟨nofun, nofun⟩

theorem record?_has {values : List (Option Value)} (found : Readable.record? (optionalFields keys) v = some values) :
    values.length = keys.length ∧ ∀ place key, keys[place]? = some key →
      ∃ w?, values[place]? = some w? ∧ ∀ w, w? = some w ↔ Has v place key w := by
  cases v with
  | record given =>
    obtain ⟨entries, named, gathered⟩ := Option.bind_eq_some_iff.mp found
    have picked := List.forall₂_map_left_iff.mp (mapM_eq_some.mp gathered)
    refine ⟨picked.length_eq.symm, fun place key here => ?_⟩
    obtain ⟨inside, rfl⟩ := List.getElem?_eq_some_iff.mp here
    have across : place < values.length := picked.length_eq ▸ inside
    have field := pickField_mem (picked.get inside across)
    refine ⟨values[place], List.getElem?_eq_getElem across, fun w => ?_⟩
    rw [namedEntries_exact.mp named]
    refine (field w).trans ⟨.named, fun has => ?_⟩
    exact has_named.mp has
  | list items =>
    obtain ⟨short, found⟩ : items.length ≤ (optionalFields keys).length ∧
        Readable.alignFields (optionalFields keys) items = some values := by
      change (if items.length ≤ (optionalFields keys).length then _ else none) = _ at found
      split at found
      · exact ⟨‹_›, found⟩
      · cases found
    rw [alignFields_eq, Option.some_inj] at found
    subst found
    refine ⟨by rw [List.length_map, List.length_range], fun place key here => ⟨items[place]?, ?_, fun w => ?_⟩⟩
    · have inside := (List.getElem?_eq_some_iff.mp here).1
      rw [List.getElem?_map, List.getElem?_range inside]
      rfl
    · refine ⟨.placed, fun has => ?_⟩
      cases has with
      | placed there => exact there
  | _ => cases found

-- A value of another shape is not read, and of a record each field is read.
theorem record?_cases (v : Value) (keys : List String) :
    ¬ IsRecord keys v ∧ Readable.record? (optionalFields keys) v = none ∨
      IsRecord keys v ∧ ∃ values, Readable.record? (optionalFields keys) v = some values ∧
        values.length = keys.length ∧ ∀ place key, keys[place]? = some key →
          ∃ w?, values[place]? = some w? ∧ ∀ w, w? = some w ↔ Has v place key w := by
  have shape : (Readable.record? (optionalFields keys) v).isSome = true ↔ IsRecord keys v := record?_isSome
  cases found : Readable.record? (optionalFields keys) v with
  | none =>
    rw [found] at shape
    exact .inl ⟨fun record => Bool.false_ne_true (shape.mpr record), rfl⟩
  | some values =>
    rw [found] at shape
    exact .inr ⟨shape.mp rfl, values, rfl, record?_has found⟩

theorem record?_one (v : Value) (key : String) :
    ¬ IsRecord [key] v ∧ Readable.record? [⟨[key], true⟩] v = none ∨
      IsRecord [key] v ∧ ∃ w?, Readable.record? [⟨[key], true⟩] v = some [w?] ∧ ∀ w, w? = some w ↔ Has v 0 key w := by
  refine (record?_cases v [key]).imp_right ?_
  rintro ⟨shape, values, found, length, known⟩
  obtain ⟨w?, first, field⟩ := known 0 key rfl
  obtain ⟨u, rfl⟩ := List.length_eq_one_iff.mp length
  cases first
  exact ⟨shape, w?, found, field⟩

theorem record?_two (v : Value) (key key' : String) :
    ¬ IsRecord [key, key'] v ∧ Readable.record? [⟨[key], true⟩, ⟨[key'], true⟩] v = none ∨
      IsRecord [key, key'] v ∧ ∃ w? u?, Readable.record? [⟨[key], true⟩, ⟨[key'], true⟩] v = some [w?, u?] ∧
        (∀ w, w? = some w ↔ Has v 0 key w) ∧ ∀ u, u? = some u ↔ Has v 1 key' u := by
  refine (record?_cases v [key, key']).imp_right ?_
  rintro ⟨shape, values, found, length, known⟩
  obtain ⟨w?, first, field⟩ := known 0 key rfl
  obtain ⟨u?, second, field'⟩ := known 1 key' rfl
  obtain ⟨_, _, rfl⟩ := List.length_eq_two.mp length
  cases first
  cases second
  exact ⟨shape, w?, u?, found, field, field'⟩

end

end CallAtlas.Json.Value
