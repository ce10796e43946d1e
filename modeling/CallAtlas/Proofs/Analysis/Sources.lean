import CallAtlas.Proofs.Analysis.Locality
import CallAtlas.Proofs.Files.Frames

namespace CallAtlas

open CallAtlas.Text Sdk

theorem Sdk.Vendor.endpoint?_congr {v : Vendor} {tree : SourceTree}
    (same : ∀ dir, SourceTree.SameSources dir v.tree tree) (lists : v.tree.ListsNames) (c : Convention)
    (importPath function : String) :
    (v.withTree tree).endpoint? c importPath function = v.endpoint? c importPath function := by
  have work : ∀ dir, c.resolvePackage tree dir = c.resolvePackage v.tree dir := fun dir =>
    (c.resolvePackage_congr (same dir) lists).symm
  unfold endpoint? withTree packageDir
  simp only [work]

namespace Analyzer

variable {a : Analyzer} {tree : SourceTree}

section
variable (same : ∀ dir, SourceTree.SameSources dir a.vendor.tree tree) (lists : a.vendor.tree.ListsNames)
include same lists

theorem callOf?_congr (c : Convention) (file : Go.SourceFile) (f : Go.Function) (package : Package)
    (i : Invocation) : (a.withTree tree).callOf? c file f package i = a.callOf? c file f package i := by
  have endpoint : (a.withTree tree).vendor.endpoint? c package.importPath i.function =
      a.vendor.endpoint? c package.importPath i.function := Vendor.endpoint?_congr same lists c _ _
  unfold callOf?
  rw [endpoint]
  rfl

theorem callsAt_congr (c : Convention) (file : Go.SourceFile) :
    (a.withTree tree).callsAt c file = a.callsAt c file := by
  funext site
  cases site with
  | invocation f package i => rw [callsAt, callsAt, callOf?_congr same lists]
  | function f => rfl

theorem analyze_congr (file : Go.SourceFile) : (a.withTree tree).analyze file = a.analyze file := by
  rw [analyze_sites, analyze_sites, callsOfSites, callsOfSites, callsAt_congr same lists]
  rfl

theorem resourceCalls_congr (file : Go.SourceFile) (comments : Bool) :
    (a.withTree tree).resourceCalls file comments = a.resourceCalls file comments := by
  unfold resourceCalls
  rw [analyze_congr same lists]

end

end Analyzer

namespace Disk

variable {d d' : Disk} {own : Place → Bool}

-- The name of a file directly at a place.
def nameAt? (at_ : Place) : Place × Entry → Option String
  | (p, .file _) => if p.dropLast == at_ then p.getLast? else none
  | (_, .dir) => none

theorem namesAt_eq (d : Disk) (at_ : Place) :
    d.namesAt at_ = (d.entries.filterMap (nameAt? at_)).mergeSort fun a b => decide (a ≤ b) := by
  refine congrArg (List.mergeSort · _) (List.filterMap_congr ?_)
  rintro ⟨p, e⟩ _
  cases e <;> rfl

-- Names are in the same order whatever stands between them.
theorem filter_sorted (names : List String) (p : String → Bool) :
    (names.mergeSort fun a b => decide (a ≤ b)).filter p =
      (names.filter p).mergeSort fun a b => decide (a ≤ b) := by
  have sorted : ∀ names : List String,
      (names.mergeSort fun a b => decide (a ≤ b)).Pairwise fun a b => decide (a ≤ b) = true := by
    intro names
    refine List.pairwise_mergeSort ?_ ?_ names
    · intro a b c first second
      exact decide_eq_true ((of_decide_eq_true first).trans (of_decide_eq_true second))
    · intro a b
      rw [Bool.or_eq_true, decide_eq_true_iff, decide_eq_true_iff]
      exact le_total a b
  have perm : ((names.mergeSort fun a b => decide (a ≤ b)).filter p).Perm
      ((names.filter p).mergeSort fun a b => decide (a ≤ b)) :=
    ((List.mergeSort_perm names _).filter p).trans (List.mergeSort_perm (names.filter p) _).symm
  refine perm.eq_of_pairwise ?_ ((sorted names).filter p) (sorted (names.filter p))
  intro a b _ _ before after
  exact le_antisymm (of_decide_eq_true before) (of_decide_eq_true after)

theorem sources_others (at_ : Place)
    (unnamed : ∀ place n, own place = true → place.getLast? = some n → endsWith n ".go" = false)
    (entries : List (Place × Entry)) :
    (entries.filterMap (nameAt? at_)).filter (endsWith · ".go") =
      ((entries.filter (isOther own)).filterMap (nameAt? at_)).filter (endsWith · ".go") := by
  induction entries with
  | nil => rfl
  | cons entry rest ih =>
    obtain ⟨place, e⟩ := entry
    cases e with
    | dir => exact ih
    | file body =>
      rw [List.filter_cons]
      cases mine : own place with
      | false =>
        have other : isOther own (place, .file body) = true := by rw [isOther, mine]; rfl
        rw [if_pos other, List.filterMap_cons, List.filterMap_cons]
        cases nameAt? at_ (place, .file body) with
        | none => exact ih
        | some n => rw [List.filter_cons, List.filter_cons, ih]
      | true =>
        have hidden : isOther own (place, .file body) = false := by rw [isOther, mine]; rfl
        rw [hidden, if_neg Bool.false_ne_true, ← ih, List.filterMap_cons]
        cases named : nameAt? at_ (place, .file body) with
        | none => rfl
        | some n =>
          have last : place.getLast? = some n := by
            simp only [nameAt?] at named
            split at named
            · exact named
            · cases named
          rw [List.filter_cons, unnamed place n mine last, if_neg Bool.false_ne_true]

-- A run whose own files are not Go leaves the Go files of every directory.
theorem Grown.sources (grown : Grown own d d') (same : SameTree d d')
    (unnamed : ∀ place n, own place = true → place.getLast? = some n → endsWith n ".go" = false)
    (dir : Path) : SourceTree.SameSources dir (.ofDisk d) (.ofDisk d') := by
  have place : d'.placeOf? dir = d.placeOf? dir := by
    unfold placeOf?
    rw [same.start, same.follow]
  have reads : ∀ n, Path.IsName n → endsWith n ".go" = true → d.read? (dir.join n) = d'.read? (dir.join n) := by
    intro n plain source
    rw [read?_join dir plain, read?_join dir plain, place]
    cases d.placeOf? dir with
    | none => rfl
    | some at_ =>
      have other : own (at_ ++ [n]) = false := by
        rw [Bool.eq_false_iff]
        intro mine
        rw [unnamed _ n mine List.getLast?_concat] at source
        cases source
      simp only [Option.bind_some, same.dirs, grown.bodies _ other]
  refine ⟨?_, fun n plain source => congrArg Option.isSome (reads n plain source), reads⟩
  show (d.fileNames dir).filter _ = (d'.fileNames dir).filter _
  rw [fileNames_eq, fileNames_eq, place]
  split
  · rfl
  · cases d.placeOf? dir with
    | none => rfl
    | some at_ =>
      simp only [Option.map_some, Option.getD_some, namesAt_eq, filter_sorted]
      rw [sources_others at_ unnamed d.entries, sources_others at_ unnamed d'.entries, grown.others]

end Disk

end CallAtlas
