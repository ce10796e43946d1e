import CallAtlas.Call.Distinct
import CallAtlas.Proofs.Data.SortedMap
import Mathlib.Data.List.Perm.Basic

namespace CallAtlas.Call

-- By URL, then by method, then by service name.
def Before (a b : String × String × String) : Prop :=
  Prod.Lex (· < ·) (Prod.Lex (· < ·) (· < ·)) a b

theorem Before.irrefl (a : String × String × String) : ¬ Before a a := by
  simp only [Before, Prod.lex_def, String.lt_irrefl, and_false, or_false, not_false_eq_true]

theorem Before.trans {a b c : String × String × String} (first : Before a b) (second : Before b c) :
    Before a c := by
  simp only [Before, Prod.lex_def] at *
  grind [String.lt_trans]

theorem key_eq_iff {a b : Call} : a.key = b.key ↔ a.identity = b.identity := by
  simp [key, Prod.ext_iff]

theorem key_lt_iff {a b : Call} : a.key < b.key ↔ Before a.identity b.identity := by
  have before : a.key < b.key ↔ a.key.before b.key = true := Iff.rfl
  rw [before, Before, Prod.lex_def, Prod.lex_def]
  simp only [Identity.before, key]
  have urls := @OrderedKey.connected String _ _ a.identity.1 b.identity.1
  have methods := @OrderedKey.connected String _ _ a.identity.2.1 b.identity.2.1
  grind [String.lt_irrefl, String.lt_asymm]

def firstOf? (calls : List Call) (i : String × String × String) : Option Call :=
  calls.find? (·.identity = i)

structure Canonical (calls kept : List Call) : Prop where
  increasing : kept.Pairwise fun a b => Before a.identity b.identity
  identities : ∀ i, i ∈ kept.map identity ↔ i ∈ calls.map identity
  first : ∀ c ∈ kept, firstOf? calls c.identity = some c

theorem mem_identities {calls : List Call} {i : String × String × String} :
    i ∈ calls.map identity ↔ (firstOf? calls i).isSome = true := by
  simp [firstOf?]

theorem firstOf?_identity {calls : List Call} {i : String × String × String} {c : Call}
    (found : firstOf? calls i = some c) : c.identity = i := by
  have fits := List.find?_some found
  exact of_decide_eq_true fits

theorem firstOf?_append (calls more : List Call) (i : String × String × String) :
    firstOf? (calls ++ more) i = (firstOf? calls i).or (firstOf? more i) :=
  List.find?_append

-- Strictly increasing lists with the same members are the same.
theorem increasing_ext {as bs : List (String × String × String)} (first : as.Pairwise Before)
    (second : bs.Pairwise Before) (same : ∀ i, i ∈ as ↔ i ∈ bs) : as = bs := by
  have distinct : ∀ {cs : List (String × String × String)}, cs.Pairwise Before → cs.Nodup := by
    intro cs sorted
    apply sorted.imp
    intro a b before equal
    exact Before.irrefl a (equal ▸ before)
  have perm : as.Perm bs := (List.perm_ext_iff_of_nodup (distinct first) (distinct second)).mpr same
  apply perm.eq_of_pairwise _ first second
  intro a b _ _ below above
  exact absurd (below.trans above) (Before.irrefl a)

namespace Canonical

variable {calls others kept more : List Call}

theorem identities_increasing (canonical : Canonical calls kept) :
    (kept.map identity).Pairwise Before :=
  List.pairwise_map.mpr canonical.increasing

-- A canonical form is read off the first calls.
theorem kept_eq (canonical : Canonical calls kept) :
    kept = (kept.map identity).filterMap (firstOf? calls) := by
  rw [List.filterMap_map]
  have each : ∀ c ∈ kept, (firstOf? calls ∘ identity) c = some c := canonical.first
  rw [List.filterMap_congr each, List.filterMap_some]

theorem unique (canonical : Canonical calls kept) (other : Canonical calls more) : kept = more := by
  have same : kept.map identity = more.map identity := by
    apply increasing_ext canonical.identities_increasing other.identities_increasing
    intro i
    rw [canonical.identities, other.identities]
  rw [canonical.kept_eq, other.kept_eq, same]

theorem firstOf?_kept (canonical : Canonical calls kept) (i : String × String × String) :
    firstOf? kept i = firstOf? calls i := by
  cases found : firstOf? kept i with
  | some c =>
    have identity := firstOf?_identity found
    rw [← identity, canonical.first c (List.mem_of_find?_eq_some found)]
  | none =>
    have absent : i ∉ kept.map identity := by
      rw [mem_identities, found]
      simp
    rw [canonical.identities, mem_identities, Bool.not_eq_true, Option.isSome_eq_false_iff] at absent
    exact (Option.isNone_iff_eq_none.mp absent).symm

-- Only the first calls of a list count.
theorem of_firsts (canonical : Canonical calls kept) (same : ∀ i, firstOf? calls i = firstOf? others i) :
    Canonical others kept where
  increasing := canonical.increasing
  identities i := by rw [canonical.identities, mem_identities, mem_identities, same]
  first c member := by rw [← same, canonical.first c member]

end Canonical

def firsts (calls : List Call) : SortedMap Identity Call :=
  calls.foldl (fun m c => m.insertNew c.key c) SortedMap.empty

theorem firsts_sorted (calls : List Call) : (firsts calls).Sorted :=
  SortedMap.Sorted.foldl_insertNew key calls SortedMap.sorted_empty

theorem firsts_get? (calls : List Call) (c : Call) :
    (firsts calls).get? c.key = firstOf? calls c.identity := by
  rw [firsts, SortedMap.get?_foldl_insertNew key calls SortedMap.sorted_empty]
  simp only [key_eq_iff]
  rfl

theorem firsts_entries (calls : List Call) : ∀ e ∈ (firsts calls).entries, e.1 = e.2.key := by
  intro e member
  have found : (firsts calls).get? e.1 = some e.2 :=
    (SortedMap.get?_eq_some (firsts_sorted calls).keys_nodup).mpr member
  rw [firsts, SortedMap.get?_foldl_insertNew key calls SortedMap.sorted_empty] at found
  have first : calls.find? (fun c => c.key = e.1) = some e.2 := found
  have fits := List.find?_some first
  exact (of_decide_eq_true fits).symm

theorem mem_distinct {calls : List Call} {c : Call} :
    c ∈ distinct calls ↔ firstOf? calls c.identity = some c := by
  rw [← firsts_get?, SortedMap.get?_eq_some (firsts_sorted calls).keys_nodup]
  constructor
  · intro member
    obtain ⟨e, inside, rfl⟩ := List.mem_map.mp member
    rw [← firsts_entries calls e inside]
    exact inside
  · intro entry
    exact List.mem_map.mpr ⟨_, entry, rfl⟩

theorem distinct_increasing (calls : List Call) :
    (distinct calls).Pairwise fun a b => Before a.identity b.identity := by
  have sorted := List.pairwise_map.mp (firsts_sorted calls)
  apply List.pairwise_map.mpr
  apply sorted.imp_of_mem
  intro a b first second below
  rw [firsts_entries calls a first, firsts_entries calls b second] at below
  exact key_lt_iff.mp below

theorem distinct_canonical (calls : List Call) : Canonical calls (distinct calls) where
  increasing := distinct_increasing calls
  identities i := by
    constructor
    · intro member
      obtain ⟨c, kept, rfl⟩ := List.mem_map.mp member
      rw [mem_identities, mem_distinct.mp kept]
      rfl
    · intro member
      obtain ⟨c, found⟩ := Option.isSome_iff_exists.mp (mem_identities.mp member)
      have identity := firstOf?_identity found
      apply List.mem_map.mpr
      exact ⟨c, mem_distinct.mpr (identity ▸ found), identity⟩
  first _ member := mem_distinct.mp member

theorem distinct_append (calls more : List Call) :
    distinct (calls ++ more) = distinct (distinct calls ++ more) := by
  apply (distinct_canonical (calls ++ more)).unique
  apply (distinct_canonical (distinct calls ++ more)).of_firsts
  intro i
  rw [firstOf?_append, firstOf?_append, (distinct_canonical calls).firstOf?_kept]

theorem distinct_identities_perm {calls others : List Call} (perm : others.Perm calls) :
    (distinct others).map identity = (distinct calls).map identity := by
  apply increasing_ext (distinct_canonical others).identities_increasing
    (distinct_canonical calls).identities_increasing
  intro i
  rw [(distinct_canonical others).identities, (distinct_canonical calls).identities]
  exact (perm.map identity).mem_iff

-- The calls kept are the one canonical form of a list: it stays as it is, its identities do not depend
-- on the order, and of a list that grows the calls kept so far suffice.
theorem distinct_exact (calls : List Call) :
    Canonical calls (distinct calls) ∧ (∀ kept, Canonical calls kept → kept = distinct calls) ∧
      distinct (distinct calls) = distinct calls ∧
      (∀ others, others.Perm calls → (distinct others).map identity = (distinct calls).map identity) ∧
      ∀ more, distinct (calls ++ more) = distinct (distinct calls ++ more) := by
  refine ⟨distinct_canonical calls, ?_, ?_, ?_, distinct_append calls⟩
  · intro kept canonical
    exact canonical.unique (distinct_canonical calls)
  · have again := distinct_append calls []
    rw [List.append_nil, List.append_nil] at again
    exact again.symm
  · intro others perm
    exact distinct_identities_perm perm

def reported (url operation : String) : Call where
  url := url
  method := .get
  operationId := operation
  service := { name := "ecs" }

def reports : List Call := [reported "servers" "List", reported "Ports" "Get", reported "Servers" "ListAll"]

theorem distinct_exact_reports :
    (distinct reports).map (·.operationId) = ["Get", "List"] ∧
      reports.reverse.Perm reports ∧
      (distinct reports.reverse).map identity = (distinct reports).map identity ∧
      [reported "Ports" "Get", reported "servers" "List"] = distinct reports := by
  have kept : [reported "Ports" "Get", reported "servers" "List"] = distinct reports := by
    decide +kernel
  have perm : reports.reverse.Perm reports := List.reverse_perm reports
  refine ⟨by decide +kernel, perm, ?_, ?_⟩
  · exact (distinct_exact reports).2.2.2.1 reports.reverse perm
  · exact (distinct_exact reports).2.1 _ (kept ▸ (distinct_exact reports).1)

end CallAtlas.Call
