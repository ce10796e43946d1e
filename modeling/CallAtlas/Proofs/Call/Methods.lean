import CallAtlas.Http
import CallAtlas.Proofs.Text.Lower
import Mathlib.Data.List.Forall2

namespace CallAtlas

namespace Text

-- The letters with no other upper case than the usual one; the sign for kelvin is an upper case of `k`.
def isPlainLetter (c : Char) : Bool := 'a' ≤ c && c ≤ 'z' && c != 'k'

theorem plain_code {c : Char} (plain : isPlainLetter c = true) :
    97 ≤ c.toNat ∧ c.toNat ≤ 122 ∧ c.toNat ≠ 107 := by
  unfold isPlainLetter at plain
  simp only [Bool.and_eq_true, decide_eq_true_eq, bne_iff_ne] at plain
  obtain ⟨⟨low, high⟩, other⟩ := plain
  refine ⟨low, high, fun same => other ?_⟩
  rw [← Char.ofNat_toNat c, same]

theorem lower_ascii {c d : Char} (ascii : c.toNat < 128) (plain : isPlainLetter d = true) :
    c.toLower = d ↔ c = d ∨ c = d.toUpper := by
  have lowered : ∀ n : Fin 128, (Char.ofNat n).toLower = Char.ofNat n ∨
      Char.ofNat n = (Char.ofNat n).toLower.toUpper := by
    decide +kernel
  have letters : ∀ n : Fin 128, isPlainLetter (Char.ofNat n) = true →
      (Char.ofNat n).toLower = Char.ofNat n ∧ (Char.ofNat n).toUpper.toLower = Char.ofNat n := by
    decide +kernel
  have small : d.toNat < 128 := by
    have := plain_code plain
    omega
  have met := lowered ⟨c.toNat, ascii⟩
  have kept := letters ⟨d.toNat, small⟩
  simp only [Char.ofNat_toNat] at met kept
  obtain ⟨own, upper⟩ := kept plain
  constructor
  · rintro rfl
    exact met.imp_left Eq.symm
  · rintro (rfl | rfl)
    · exact own
    · exact upper

theorem shift_plain {n : Nat} (large : 128 ≤ n) :
    128 ≤ CaseTable.shift CaseTable.lower n ∨ CaseTable.shift CaseTable.lower n = 107 := by
  -- A run that leads to a letter below 128 is that of the sign for kelvin alone.
  have runs : ∀ run ∈ CaseTable.lower, (128 : Int) ≤ run.first + run.shift ∨
      run.first = run.last ∧ (run.first + run.shift : Int) = 107 := by
    decide +kernel
  unfold CaseTable.shift
  split
  · rename_i run found
    have bound := runs run (List.mem_of_find?_eq_some found)
    have covered := List.find?_some found
    simp only [CaseTable.CaseRun.covers, Bool.and_eq_true, decide_eq_true_eq] at covered
    omega
  · exact .inl large

theorem ofNat_unplain {n : Nat} (other : 128 ≤ n ∨ n = 107) : isPlainLetter (Char.ofNat n) = false := by
  refine eq_false_of_ne_true fun plain => ?_
  have code := plain_code plain
  by_cases valid : n.isValidChar
  · rw [Char.ofNat, dif_pos valid] at code
    change 97 ≤ n ∧ n ≤ 122 ∧ n ≠ 107 at code
    omega
  · rw [Char.ofNat, dif_neg valid] at code
    exact absurd code (by decide)

-- A letter that is not ASCII has something in its lower case that is no plain letter.
theorem lowerChar_unplain {c : Char} (large : ¬ c.toNat < 128) (before after : List Char) :
    ∃ d ∈ lowerChar before c after, isPlainLetter d = false := by
  unfold lowerChar
  rw [if_neg large]
  split
  · exact ⟨_, List.mem_cons_of_mem _ List.mem_cons_self, by decide⟩
  · split
    · split
      · exact ⟨_, List.mem_cons_self, by decide⟩
      · exact ⟨_, List.mem_cons_self, by decide⟩
    · exact ⟨_, List.mem_cons_self, ofNat_unplain (shift_plain (Nat.le_of_not_lt large))⟩

-- A letter in upper or lower case.
def Cases (c d : Char) : Prop := c = d ∨ c = d.toUpper

theorem lowerChars_plain {before text word : List Char} (plain : ∀ d ∈ word, isPlainLetter d = true) :
    lowerChars before text = word ↔ List.Forall₂ Cases text word := by
  induction text generalizing before word with
  | nil => rw [lowerChars, List.forall₂_nil_left_iff, eq_comm]
  | cons c rest ih =>
    rw [lowerChars]
    by_cases ascii : c.toNat < 128
    · have letter : lowerChar before c rest = [c.toLower] := by rw [lowerChar, if_pos ascii]
      rw [letter, List.singleton_append]
      cases word with
      | nil => simp
      | cons d word =>
        obtain ⟨first, others⟩ := List.forall_mem_cons.mp plain
        rw [List.cons.injEq, lower_ascii ascii first, ih others, List.forall₂_cons]
        rfl
    · obtain ⟨e, member, unplain⟩ := lowerChar_unplain ascii before rest
      constructor
      · intro whole
        have inside : e ∈ word := whole ▸ List.mem_append_left _ member
        rw [plain e inside] at unplain
        cases unplain
      · intro spelled
        cases spelled with
        | @cons _ d _ word here _ =>
          have first := plain_code (plain d List.mem_cons_self)
          rcases here with rfl | rfl
          · omega
          · have upper : ∀ n : Fin 128, (Char.ofNat n).toUpper.toNat < 128 := by decide +kernel
            have code := upper ⟨d.toNat, by omega⟩
            simp only [Char.ofNat_toNat] at code
            exact absurd code ascii

end Text

namespace Method

open CallAtlas.Text

def Spells (m : Method) (name : String) : Prop := List.Forall₂ Cases name.toList m.text.toList

theorem text_plain (m : Method) : ∀ d ∈ m.text.toList, isPlainLetter d = true := by
  cases m <;> simp [text, isPlainLetter]

theorem text_inj {m n : Method} (same : m.text = n.text) : m = n := by
  have found : ∀ m : Method, all.find? (·.text == m.text) = some m := by
    intro m
    cases m <;> decide
  have first := found m
  rw [same, found n] at first
  exact (Option.some.inj first).symm

theorem mem_all (m : Method) : m ∈ all := by
  cases m <;> decide

theorem ofText?_iff {name : String} {m : Method} : ofText? name = some m ↔ m.Spells name := by
  have lower : m.text = toLower name ↔ m.Spells name := by
    rw [eq_comm, ← String.toList_inj, toLower_toList]
    exact lowerChars_plain m.text_plain
  rw [← lower, ofText?]
  constructor
  · intro found
    have fits := List.find?_some found
    exact eq_of_beq fits
  · intro same
    cases found : all.find? fun n => n.text == toLower name with
    | none => exact absurd (beq_iff_eq.mpr same) (List.find?_eq_none.mp found m m.mem_all)
    | some n =>
      have fits := List.find?_some found
      rw [text_inj ((eq_of_beq fits).trans same.symm)]

-- The letters of a name are no blanks.
theorem Spells.letters {m : Method} {name : String} (spells : m.Spells name) :
    ∀ c ∈ name.toList, isBlank c = false := by
  have blanks : ∀ n : Fin 128, isPlainLetter (Char.ofNat n) = true →
      isBlank (Char.ofNat n) = false ∧ isBlank (Char.ofNat n).toUpper = false := by
    decide +kernel
  suffices general : ∀ {text word : List Char}, List.Forall₂ Cases text word →
      (∀ d ∈ word, isPlainLetter d = true) → ∀ c ∈ text, isBlank c = false from
    general spells m.text_plain
  intro text word spelled plain
  induction spelled with
  | nil => exact nofun
  | @cons c d text word here _ ih =>
    obtain ⟨first, others⟩ := List.forall_mem_cons.mp plain
    have code := plain_code first
    have letter := blanks ⟨d.toNat, by omega⟩
    simp only [Char.ofNat_toNat] at letter
    refine List.forall_mem_cons.mpr ⟨?_, ih others⟩
    rcases here with rfl | rfl
    · exact (letter first).1
    · exact (letter first).2

end Method

end CallAtlas
