import CallAtlas.Path
import Mathlib.Data.List.Sort
import Mathlib.Data.Prod.Lex
import Mathlib.Data.String.Basic

namespace CallAtlas.Path

def Component.key (c : Component) : ℕ ×ₗ String := toLex (c.rank, c.text)

theorem Component.key_injective : Function.Injective Component.key := by
  intro a b same
  rw [Component.key, Component.key, toLex.injective.eq_iff, Prod.mk.injEq] at same
  cases a <;> cases b <;> simp_all [Component.rank, Component.text]

theorem Component.before_iff (a b : Component) : a.before b = true ↔ a.key < b.key := by
  rw [Component.key, Component.key, Prod.Lex.toLex_lt_toLex]
  cases a <;> cases b <;> simp [Component.before, Component.rank, Component.text]

def key (p : Path) : List (ℕ ×ₗ String) := p.components.map Component.key

theorem key_eq {p q : Path} : p.key = q.key ↔ p.components = q.components :=
  (List.map_injective_iff.mpr Component.key_injective).eq_iff

theorem componentsBefore_iff (as bs : List Component) :
    componentsBefore as bs = true ↔ as.map Component.key < bs.map Component.key := by
  induction as generalizing bs with
  | nil => cases bs <;> simp [componentsBefore]
  | cons a as ih =>
    cases bs with
    | nil => simp [componentsBefore]
    | cons b bs =>
      rw [componentsBefore, List.map_cons, List.map_cons, List.cons_lt_cons_iff, ← ih]
      simp only [Component.before_iff]
      rcases lt_trichotomy a.key b.key with less | same | more
      · simp [less]
      · simp [same]
      · simp [more, not_lt_of_gt more, ne_of_gt more]

theorem before_iff {p q : Path} : p.before q = true ↔ p.key < q.key :=
  componentsBefore_iff p.components q.components

theorem not_before_iff {p q : Path} : (!q.before p) = true ↔ p.key ≤ q.key := by
  rw [Bool.not_eq_true', ← Bool.not_eq_true, before_iff, not_lt]

section Sorted

variable {α : Type} (path : α → Path)

def sortBy (as : List α) : List α := as.mergeSort fun a b => !(path b).before (path a)

theorem sortBy_perm (as : List α) : (sortBy path as).Perm as := List.mergeSort_perm as _

def Apart (as : List α) : Prop := as.Pairwise fun a b => (path a).same (path b) = false

variable {path} {as bs : List α}

theorem Apart.perm (perm : as.Perm bs) (apart : Apart path as) : Apart path bs := by
  refine perm.pairwise apart ?_
  intro a b other
  rw [same] at other ⊢
  rwa [Bool.beq_comm]

theorem sortBy_strict (apart : Apart path as) :
    (sortBy path as).Pairwise fun a b => (path a).before (path b) = true := by
  have sorted : (sortBy path as).Pairwise fun a b => (!(path b).before (path a)) = true := by
    apply List.pairwise_mergeSort
    · intro a b c first second
      rw [not_before_iff] at *
      exact le_trans first second
    · intro a b
      rw [Bool.or_eq_true, not_before_iff, not_before_iff]
      exact le_total _ _
  refine (sorted.and (apart.perm (sortBy_perm path as).symm)).imp ?_
  rintro a b ⟨ordered, other⟩
  rw [before_iff]
  refine lt_of_le_of_ne (not_before_iff.mp ordered) ?_
  simpa [key_eq, same] using other

theorem sortBy_eq (apart : Apart path as) (perm : as.Perm bs) : sortBy path as = sortBy path bs := by
  have same : (sortBy path as).Perm (sortBy path bs) :=
    (sortBy_perm path as).trans (perm.trans (sortBy_perm path bs).symm)
  refine same.eq_of_pairwise ?_ (sortBy_strict apart) (sortBy_strict (apart.perm perm))
  intro a b _ _ before after
  exact absurd (before_iff.mp after) (lt_asymm (before_iff.mp before))

end Sorted

end CallAtlas.Path
