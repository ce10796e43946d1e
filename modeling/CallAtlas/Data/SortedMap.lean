namespace CallAtlas

-- Keys in a strict order in which any two different ones can be compared.
class OrderedKey (κ : Type) [LT κ] : Prop where
  irrefl : ∀ a : κ, ¬ a < a
  trans : ∀ {a b c : κ}, a < b → b < c → a < c
  connected : ∀ {a b : κ}, ¬ a < b → ¬ b < a → a = b

instance : OrderedKey String where
  irrefl := String.lt_irrefl
  trans := String.lt_trans
  connected h₁ h₂ := String.le_antisymm (String.not_lt.mp h₂) (String.not_lt.mp h₁)

-- The operations below keep the keys strictly increasing, so that equal maps have equal lists.
structure SortedMap (κ α : Type) where
  entries : List (κ × α) := []
  deriving Repr, DecidableEq

namespace SortedMap

variable {κ α β : Type}

def empty : SortedMap κ α := ⟨[]⟩

instance : Inhabited (SortedMap κ α) := ⟨empty⟩

section

variable [LT κ] [DecidableRel (fun a b : κ => a < b)]

def alterEntries (key : κ) (f : Option α → α) : List (κ × α) → List (κ × α)
  | [] => [(key, f none)]
  | (k, v) :: rest =>
    if key < k then (key, f none) :: (k, v) :: rest
    else if k < key then (k, v) :: alterEntries key f rest
    else (k, f (some v)) :: rest

def alter (m : SortedMap κ α) (key : κ) (f : Option α → α) : SortedMap κ α :=
  ⟨alterEntries key f m.entries⟩

def insert (m : SortedMap κ α) (key : κ) (value : α) : SortedMap κ α :=
  m.alter key fun _ => value

def insertNew (m : SortedMap κ α) (key : κ) (value : α) : SortedMap κ α :=
  m.alter key fun old => old.getD value

-- The map of a list of entries; the last entry of a key counts.
def ofList (entries : List (κ × α)) : SortedMap κ α :=
  entries.foldl (fun m e => m.insert e.1 e.2) empty

end

def get? [DecidableEq κ] (m : SortedMap κ α) (key : κ) : Option α :=
  (m.entries.find? fun e => e.1 = key).map (·.2)

def keys (m : SortedMap κ α) : List κ := m.entries.map (·.1)

def values (m : SortedMap κ α) : List α := m.entries.map (·.2)

def size (m : SortedMap κ α) : Nat := m.entries.length

def isEmpty (m : SortedMap κ α) : Bool := m.entries.isEmpty

def Sorted [LT κ] (m : SortedMap κ α) : Prop := m.keys.Pairwise (· < ·)

theorem sorted_empty [LT κ] : (empty : SortedMap κ α).Sorted := List.Pairwise.nil

section

variable [LT κ] [DecidableRel (fun a b : κ => a < b)] [OrderedKey κ]

theorem mem_keys_alterEntries {key k : κ} {f : Option α → α} {entries : List (κ × α)} :
    k ∈ (alterEntries key f entries).map (·.1) ↔ k = key ∨ k ∈ entries.map (·.1) := by
  induction entries with
  | nil => simp [alterEntries]
  | cons e rest ih =>
    obtain ⟨first, v⟩ := e
    simp only [alterEntries]
    split
    · simp
    · split
      · simp [ih, or_left_comm]
      · rename_i h₁ h₂
        have : key = first := OrderedKey.connected h₁ h₂
        simp [this]

theorem Sorted.alter {m : SortedMap κ α} (h : m.Sorted) (key : κ) (f : Option α → α) :
    (m.alter key f).Sorted := by
  obtain ⟨entries⟩ := m
  simp only [Sorted, keys, SortedMap.alter] at h ⊢
  induction entries with
  | nil => simp [alterEntries]
  | cons e rest ih =>
    obtain ⟨first, v⟩ := e
    simp only [List.map_cons, List.pairwise_cons] at h
    simp only [alterEntries]
    split
    · rename_i below
      simp only [List.map_cons, List.pairwise_cons]
      refine ⟨?_, h⟩
      intro k mem
      rcases List.mem_cons.mp mem with rfl | mem
      · exact below
      · exact OrderedKey.trans below (h.1 k mem)
    · split
      · rename_i above
        simp only [List.map_cons, List.pairwise_cons]
        refine ⟨?_, ih h.2⟩
        intro k mem
        rcases mem_keys_alterEntries.mp mem with rfl | mem
        · exact above
        · exact h.1 k mem
      · simpa using h

variable [DecidableEq κ]

theorem get?_insert_self (m : SortedMap κ α) (key : κ) (value : α) :
    (m.insert key value).get? key = some value := by
  obtain ⟨entries⟩ := m
  simp only [insert, SortedMap.alter, get?]
  induction entries with
  | nil => simp [alterEntries]
  | cons e rest ih =>
    obtain ⟨k, v⟩ := e
    simp only [alterEntries]
    split
    · simp
    · split
      · rename_i h
        have : k ≠ key := fun eq => OrderedKey.irrefl key (eq ▸ h)
        simp [this, ih]
      · rename_i h₁ h₂
        have : k = key := (OrderedKey.connected h₁ h₂).symm
        simp [this]

theorem get?_insert_of_ne (m : SortedMap κ α) {key other : κ} (value : α) (h : other ≠ key) :
    (m.insert key value).get? other = m.get? other := by
  obtain ⟨entries⟩ := m
  simp only [insert, SortedMap.alter, get?]
  induction entries with
  | nil => simp [alterEntries, h.symm]
  | cons e rest ih =>
    obtain ⟨k, v⟩ := e
    simp only [alterEntries]
    split
    · simp [h.symm]
    · split
      · by_cases hk : k = other <;> simp [hk, ih]
      · rename_i h₁ h₂
        have : k = key := (OrderedKey.connected h₁ h₂).symm
        subst this
        simp [h.symm]

end

end SortedMap

end CallAtlas
