import CallAtlas.Go.SourceFile
import Mathlib.Data.List.TakeWhile

namespace CallAtlas

open CallAtlas.Text

-- The ending `_v` with a number.
def IsVersion (text : String) : Prop :=
  ∃ number : List Char, number ≠ [] ∧ (∀ c ∈ number, isDigit c = true) ∧
    text.toList = "_v".toList ++ number

theorem Go.resourceName_versioned {version : String} (ends : IsVersion version) (name : String) :
    resourceName (name ++ version) = name := by
  obtain ⟨number, filled, digits, text⟩ := ends
  have chars : (name ++ version).toList = (name.toList ++ "_v".toList) ++ number := by
    rw [String.toList_append, text, List.append_assoc]
  have counted : ((name ++ version).toList.reverse.takeWhile isDigit).length = number.length := by
    have letter : isDigit 'v' = false := by decide
    rw [chars, List.reverse_append, List.takeWhile_append_of_pos (by simpa using digits)]
    simp [letter]
  have lead : (name ++ version).toList.take ((name ++ version).toList.length - number.length) =
      name.toList ++ "_v".toList := by
    rw [chars, List.length_append, Nat.add_sub_cancel]
    exact List.take_left
  have some_digits : 0 < number.length := List.length_pos_iff.mpr filled
  unfold resourceName
  dsimp only
  rw [counted, lead]
  simp [some_digits]

example : Go.resourceName "cce_cluster_v3" = "cce_cluster" := by decide +kernel

theorem Go.resourceName_plain {stem : String}
    (plain : ∀ name version, IsVersion version → stem ≠ name ++ version) : resourceName stem = stem := by
  let number := (stem.toList.reverse.takeWhile isDigit).reverse
  let lead := (stem.toList.reverse.dropWhile isDigit).reverse
  have chars : stem.toList = lead ++ number := by
    rw [← List.reverse_append, List.takeWhile_append_dropWhile, List.reverse_reverse]
  have counted : (stem.toList.reverse.takeWhile isDigit).length = number.length := List.length_reverse.symm
  have cut : stem.toList.take (stem.toList.length - number.length) = lead := by
    rw [chars, List.length_append, Nat.add_sub_cancel]
    exact List.take_left
  unfold resourceName
  dsimp only
  rw [counted, cut]
  split
  · rename_i versioned
    simp only [Bool.and_eq_true, decide_eq_true_eq] at versioned
    obtain ⟨front, whole⟩ := List.isSuffixOf_iff_suffix.mp versioned.2
    have version : IsVersion (String.ofList ("_v".toList ++ number)) := by
      refine ⟨number, ?_, ?_, String.toList_ofList⟩
      · exact List.length_pos_iff.mp versioned.1
      · intro c member
        exact List.mem_takeWhile_imp (List.mem_reverse.mp member)
    refine absurd ?_ (plain (String.ofList front) _ version)
    rw [← String.toList_inj, chars, ← whole]
    simp
  · rfl

-- A name without the version at its end, if it has one.
def Unversioned (name base : String) : Prop :=
  (∃ version, IsVersion version ∧ name = base ++ version) ∨
    (∀ lead version, IsVersion version → name ≠ lead ++ version) ∧ base = name

theorem Go.resourceName_iff {name base : String} : resourceName name = base ↔ Unversioned name base := by
  constructor
  · rintro rfl
    by_cases versioned : ∃ lead version, IsVersion version ∧ name = lead ++ version
    · obtain ⟨lead, version, ends, rfl⟩ := versioned
      rw [resourceName_versioned ends]
      exact .inl ⟨version, ends, rfl⟩
    · have plain : ∀ lead version, IsVersion version → name ≠ lead ++ version :=
        fun lead version ends whole => versioned ⟨lead, version, ends, whole⟩
      exact .inr ⟨plain, resourceName_plain plain⟩
  · rintro (⟨version, ends, rfl⟩ | ⟨plain, rfl⟩)
    · exact resourceName_versioned ends base
    · exact resourceName_plain plain

end CallAtlas
