import CallAtlas.Data.SortedMap

namespace CallAtlas.SortedMap

variable {κ α : Type} [DecidableEq κ]

theorem mem_values_of_get? {m : SortedMap κ α} {key : κ} {value : α} (found : m.get? key = some value) :
    value ∈ m.values := by
  obtain ⟨e, member, rfl⟩ := Option.map_eq_some_iff.mp found
  exact List.mem_map_of_mem (List.mem_of_find?_eq_some member)

theorem isSome_get? {m : SortedMap κ α} {key : κ} : (m.get? key).isSome = true ↔ key ∈ m.keys := by
  simp [get?, keys]

variable [LT κ]

theorem get?_above [OrderedKey κ] {k key : κ} {v : α} {rest : List (κ × α)}
    (sorted : Sorted (⟨(k, v) :: rest⟩ : SortedMap κ α)) (below : key < k) :
    (⟨(k, v) :: rest⟩ : SortedMap κ α).get? key = none := by
  simp only [Sorted, keys, List.map_cons, List.pairwise_cons] at sorted
  have others : ∀ e ∈ (k, v) :: rest, e.1 ≠ key := by
    intro e member same
    subst same
    rcases List.mem_cons.mp member with rfl | later
    · exact OrderedKey.irrefl _ below
    · exact OrderedKey.irrefl _ (OrderedKey.trans below (sorted.1 _ (List.mem_map_of_mem later)))
  simp only [get?, Option.map_eq_none_iff, List.find?_eq_none, decide_eq_true_eq]
  exact others

section

variable [DecidableRel (fun a b : κ => a < b)] [OrderedKey κ]

theorem get?_alter_self {m : SortedMap κ α} (sorted : m.Sorted) (key : κ) (f : Option α → α) :
    (m.alter key f).get? key = some (f (m.get? key)) := by
  obtain ⟨entries⟩ := m
  induction entries with
  | nil => simp [alter, alterEntries, get?]
  | cons e rest ih =>
    obtain ⟨k, v⟩ := e
    by_cases below : key < k
    · rw [get?_above sorted below]
      simp [alter, alterEntries, get?, below]
    · by_cases above : k < key
      · have other : k ≠ key := fun same => OrderedKey.irrefl key (same ▸ above)
        have later : Sorted (⟨rest⟩ : SortedMap κ α) := List.Pairwise.of_cons sorted
        have found := ih later
        simp only [alter, get?] at found
        simp [alter, alterEntries, get?, below, above, other, found]
      · have same : k = key := (OrderedKey.connected below above).symm
        simp [alter, alterEntries, get?, same, OrderedKey.irrefl]

theorem get?_alter_of_ne (m : SortedMap κ α) {key other : κ} (f : Option α → α) (ne : other ≠ key) :
    (m.alter key f).get? other = m.get? other := by
  obtain ⟨entries⟩ := m
  induction entries with
  | nil => simp [alter, alterEntries, get?, ne.symm]
  | cons e rest ih =>
    obtain ⟨k, v⟩ := e
    simp only [alter, get?] at ih
    simp only [alter, alterEntries, get?]
    split
    · simp [ne.symm]
    · split
      · by_cases here : k = other <;> simp [here, ih]
      · rename_i below above
        have same : k = key := (OrderedKey.connected below above).symm
        subst same
        simp [ne.symm]

-- Of the values entered under a key the first stays.
theorem get?_foldl_insertNew (keyOf : α → κ) (values : List α) {m : SortedMap κ α} (sorted : m.Sorted)
    (key : κ) :
    (values.foldl (fun m v => m.insertNew (keyOf v) v) m).get? key =
      (m.get? key).or (values.find? fun v => keyOf v = key) := by
  induction values generalizing m with
  | nil => simp
  | cons v rest ih =>
    have next : (m.insertNew (keyOf v) v).Sorted := sorted.alter _ _
    rw [List.foldl_cons, ih next]
    by_cases same : keyOf v = key
    · subst same
      rw [insertNew, get?_alter_self sorted]
      cases m.get? (keyOf v) <;> simp
    · rw [insertNew, get?_alter_of_ne m _ (Ne.symm same)]
      simp [same]

omit [DecidableEq κ] in
theorem Sorted.foldl_insertNew {m : SortedMap κ α} (keyOf : α → κ) (values : List α) (sorted : m.Sorted) :
    (values.foldl (fun m v => m.insertNew (keyOf v) v) m).Sorted := by
  induction values generalizing m with
  | nil => exact sorted
  | cons v rest ih => exact ih (sorted.alter (keyOf v) _)

omit [DecidableEq κ] [DecidableRel (fun a b : κ => a < b)] in
theorem Sorted.keys_nodup {m : SortedMap κ α} (sorted : m.Sorted) : m.keys.Nodup := by
  refine List.Pairwise.imp ?_ sorted
  rintro a _ before rfl
  exact OrderedKey.irrefl a before

omit [DecidableEq κ] in
theorem Sorted.foldl_insert {m : SortedMap κ α} (sorted : m.Sorted) (entries : List (κ × α)) :
    (entries.foldl (fun m e => m.insert e.1 e.2) m).Sorted := by
  induction entries generalizing m with
  | nil => exact sorted
  | cons e rest ih => exact ih (sorted.alter e.1 _)

theorem get?_foldl_insert {entries : List (κ × α)} (distinct : (entries.map (·.1)).Nodup)
    (m : SortedMap κ α) (key : κ) :
    (entries.foldl (fun m e => m.insert e.1 e.2) m).get? key =
      ((⟨entries⟩ : SortedMap κ α).get? key).or (m.get? key) := by
  induction entries generalizing m with
  | nil => rfl
  | cons e rest ih =>
    obtain ⟨k, v⟩ := e
    obtain ⟨fresh, others⟩ := List.nodup_cons.mp distinct
    rw [List.foldl_cons, ih others]
    by_cases same : k = key
    · subst same
      have later : (⟨rest⟩ : SortedMap κ α).get? k = none := by
        rw [← Option.not_isSome_iff_eq_none, isSome_get?]
        exact fresh
      rw [later, get?_insert_self]
      simp [get?]
    · rw [get?_insert_of_ne m v (Ne.symm same)]
      simp [get?, same]

omit [LT κ] [DecidableRel (fun a b : κ => a < b)] [OrderedKey κ] in
theorem get?_eq_some {m : SortedMap κ α} (distinct : m.keys.Nodup) {key : κ} {value : α} :
    m.get? key = some value ↔ (key, value) ∈ m.entries := by
  obtain ⟨entries⟩ := m
  induction entries with
  | nil => simp [get?]
  | cons e rest ih =>
    obtain ⟨k, v⟩ := e
    obtain ⟨fresh, others⟩ := List.nodup_cons.mp distinct
    have later := ih others
    simp only [get?] at later
    rw [List.mem_cons, get?, List.find?_cons]
    by_cases same : k = key
    · subst same
      have absent : (k, value) ∉ rest := fun member => fresh (List.mem_map.mpr ⟨_, member, rfl⟩)
      simp [absent, eq_comm]
    · simp [same, Ne.symm same, later]

omit [DecidableRel (fun a b : κ => a < b)] in
theorem Sorted.ext {m m' : SortedMap κ α} (first : m.Sorted) (second : m'.Sorted)
    (same : ∀ key, m.get? key = m'.get? key) : m = m' := by
  obtain ⟨entries⟩ := m
  obtain ⟨entries'⟩ := m'
  have members : ∀ e, e ∈ entries ↔ e ∈ entries' := by
    intro (key, value)
    rw [← get?_eq_some first.keys_nodup, ← get?_eq_some second.keys_nodup, same key]
  have distinct : ∀ {m : SortedMap κ α}, m.Sorted → m.entries.Nodup := fun sorted =>
    List.Pairwise.of_map (·.1) (fun _ _ apart same => apart (congrArg _ same)) sorted.keys_nodup
  have perm : entries.Perm entries' :=
    (List.perm_ext_iff_of_nodup (distinct first) (distinct second)).mpr members
  have apart : ∀ a b : κ × α, a ∈ entries → b ∈ entries' → a.1 < b.1 → b.1 < a.1 → a = b :=
    fun a b _ _ below above => absurd (OrderedKey.trans below above) (OrderedKey.irrefl a.1)
  rw [perm.eq_of_pairwise apart (List.pairwise_map.mp first) (List.pairwise_map.mp second)]

omit [DecidableEq κ] [LT κ] [DecidableRel (fun a b : κ => a < b)] [OrderedKey κ] in
theorem names_sublist {β : Type} {make : β → Option (κ × α)} {nameOf : β → κ}
    (named : ∀ b entry, make b = some entry → entry.1 = nameOf b) (values : List β) :
    ((values.filterMap make).map (·.1)).Sublist (values.map nameOf) := by
  induction values with
  | nil => exact .slnil
  | cons b rest ih =>
    rw [List.filterMap_cons]
    cases made : make b with
    | none => exact ih.cons (nameOf b)
    | some entry =>
      rw [List.map_cons, List.map_cons, named b entry made]
      exact ih.cons_cons (nameOf b)

omit [DecidableEq κ] [LT κ] [DecidableRel (fun a b : κ => a < b)] [OrderedKey κ] in
theorem mem_named {β : Type} {valueOf? : β → Option α} {nameOf : β → κ} {values : List β} {key : κ} {value : α} :
    (key, value) ∈ values.filterMap (fun b => (valueOf? b).map (nameOf b, ·)) ↔
      ∃ b ∈ values, nameOf b = key ∧ valueOf? b = some value := by
  rw [List.mem_filterMap]
  refine exists_congr fun b => and_congr_right fun _ => ?_
  cases valueOf? b <;> simp

theorem get?_named {β : Type} {valueOf? : β → Option α} {nameOf : β → κ} {values : List β}
    (distinct : (values.map nameOf).Nodup) {key : κ} {value : α} :
    (ofList (values.filterMap fun b => (valueOf? b).map (nameOf b, ·))).get? key = some value ↔
      ∃ b ∈ values, nameOf b = key ∧ valueOf? b = some value := by
  have sublist := names_sublist (fun b entry (made : (valueOf? b).map (nameOf b, ·) = some entry) => by
    obtain ⟨_, _, rfl⟩ := Option.map_eq_some_iff.mp made
    rfl) values
  have names := sublist.nodup distinct
  rw [ofList, get?_foldl_insert names, ← mem_named, ← get?_eq_some names]
  cases get? ⟨_⟩ key <;> rfl

omit [OrderedKey κ] [DecidableEq κ] in
theorem mem_values_alter {m : SortedMap κ α} {key : κ} {f : Option α → α} {value : α}
    (member : value ∈ (m.alter key f).values) :
    value ∈ m.values ∨ value = f none ∨ ∃ old ∈ m.values, value = f (some old) := by
  obtain ⟨entries⟩ := m
  simp only [alter, values] at member ⊢
  induction entries with
  | nil => exact .inr (.inl (by simpa [alterEntries] using member))
  | cons e rest ih =>
    obtain ⟨k, v⟩ := e
    simp only [alterEntries] at member
    split at member
    · simp only [List.map_cons, List.mem_cons] at member ⊢
      rcases member with new | old
      · exact .inr (.inl new)
      · exact .inl old
    · split at member
      · simp only [List.map_cons, List.mem_cons] at member ⊢
        rcases member with here | later
        · exact .inl (.inl here)
        · rcases ih later with old | new | ⟨old, before, changed⟩
          · exact .inl (.inr old)
          · exact .inr (.inl new)
          · exact .inr (.inr ⟨old, .inr before, changed⟩)
      · simp only [List.map_cons, List.mem_cons] at member ⊢
        rcases member with changed | later
        · exact .inr (.inr ⟨v, .inl rfl, changed⟩)
        · exact .inl (.inr later)

omit [OrderedKey κ] [DecidableEq κ] in
theorem mem_values_insert {m : SortedMap κ α} {key : κ} {value other : α}
    (member : other ∈ (m.insert key value).values) : other ∈ m.values ∨ other = value := by
  rcases mem_values_alter member with old | new | ⟨_, _, new⟩
  · exact .inl old
  · exact .inr new
  · exact .inr new

omit [OrderedKey κ] [DecidableEq κ] in
theorem mem_values_insertNew {m : SortedMap κ α} {key : κ} {value other : α}
    (member : other ∈ (m.insertNew key value).values) : other ∈ m.values ∨ other = value := by
  rcases mem_values_alter member with old | new | ⟨old, before, kept⟩
  · exact .inl old
  · exact .inr new
  · exact .inl (kept ▸ before)

end

end CallAtlas.SortedMap
