import CallAtlas.Proofs.Analysis.Locality
import CallAtlas.Proofs.Analysis.Recorded
import Mathlib

namespace CallAtlas

open CallAtlas.Text Sdk Sdk.Resolving Sdk.Vendor

section Tables

variable {α β γ : Type}

theorem filterMap_cons_toList (g : α → Option γ) (a : α) (rest : List α) :
    (a :: rest).filterMap g = (g a).toList ++ rest.filterMap g := by
  rw [List.filterMap_cons]
  cases g a <;> rfl

theorem flatMap_filterMap_swap (g : α → β → Option γ) (rows : List α) (columns : List β) :
    (rows.flatMap fun a => columns.filterMap (g a)).Perm
      (columns.flatMap fun b => rows.filterMap fun a => g a b) := by
  induction rows with
  | nil => simp
  | cons a rest ih =>
    have row : columns.filterMap (g a) = columns.flatMap fun b => (g a b).toList := by
      rw [List.filterMap_eq_flatMap_toList]
    simp only [filterMap_cons_toList, List.flatMap_cons, row]
    exact (ih.append_left _).trans (List.flatMap_append_perm columns _ _)

-- A sum over counts is no more than their number if no count is more than one, and what is above one
-- has to be made up for by what is none.
theorem sum_le_length_iff (counts : List Nat) :
    counts.sum ≤ counts.length ↔ (counts.map (· - 1)).sum ≤ counts.countP (· == 0) := by
  have split : counts.sum + counts.countP (· == 0) = (counts.map (· - 1)).sum + counts.length := by
    induction counts with
    | nil => rfl
    | cons n rest ih =>
      rw [List.sum_cons, List.countP_cons, List.map_cons, List.sum_cons, List.length_cons]
      cases n with
      | zero => simp; omega
      | succ n => simp; omega
  omega

end Tables

namespace Analyzer

variable {a : Analyzer} {c : Convention} {file : Go.SourceFile} {f : Go.Function} {t : State}
  {packages : List Package} {i : Invocation}

def answers (a : Analyzer) (t : State) (c : Convention) (i : Invocation) (package : Package) : Bool :=
  (a.endpointIn? t c package i).isSome

-- The records of one call, over all packages.
def recordsOf (a : Analyzer) (t : State) (c : Convention) (file : Go.SourceFile) (packages : List Package)
    (f : Go.Function) (i : Invocation) : List Call :=
  packages.filterMap fun package => a.recordIn? t c file f package i

theorem recordsOf_sources (generated : c.kind = .generated) :
    (a.recordsOf t c file packages f i).map (fun call => (call.operationId, call.sdkPath)) =
      (packages.filter (a.answers t c i)).map fun package => (i.function, package.importPath) := by
  unfold recordsOf
  induction packages with
  | nil => rfl
  | cons package rest ih =>
    rw [List.filterMap_cons, List.filter_cons, answers, recordIn?]
    cases a.endpointIn? t c package i with
    | none => exact ih
    | some e =>
      have plain : a.recordAs c file f package i e =
          Call.ofEndpoint e i.function (a.service c file i.receiver f).value package.importPath := by
        rw [recordAs, generated]
        rfl
      simp only [Option.map_some, Option.isSome_some, if_true, List.map_cons, ih, plain]
      rfl

theorem recordsOf_length : (a.recordsOf t c file packages f i).length = packages.countP (a.answers t c i) := by
  rw [recordsOf, List.length_filterMap_eq_countP]
  congr 1
  funext package
  rw [recordIn?, Option.isSome_map]
  rfl

-- By induction on the imports, with what is found so far distinct.
theorem packages_distinct (marker : String) (imports : List Go.Import) :
    ((Generated.packages marker imports).map (·.importPath)).Nodup := by
  unfold Generated.packages
  suffices keeps : ∀ (imports : List Go.Import) (found : List Package), (found.map (·.importPath)).Nodup →
      ((imports.foldl (fun found i =>
        let path := trimEndText "/model" i.path
        if contains i.path marker && !found.any (·.importPath == path) then
          found ++ [⟨i.givenName.getD (afterLast '/' path), path⟩]
        else found) found).map (·.importPath)).Nodup by
    exact keeps imports [] .nil
  intro imports
  induction imports with
  | nil => exact fun _ distinct => distinct
  | cons i rest ih =>
    intro found distinct
    rw [List.foldl_cons]
    refine ih _ ?_
    dsimp only
    split
    · rename_i new
      rw [Bool.and_eq_true, Bool.not_eq_true', List.any_eq_false] at new
      rw [List.map_append, List.nodup_append]
      refine ⟨distinct, List.nodup_singleton _, ?_⟩
      intro path old last added same
      obtain ⟨package, member, rfl⟩ := List.mem_map.mp old
      rw [List.map_singleton, List.mem_singleton] at added
      exact new.2 package member (beq_iff_eq.mpr (same.trans added))
    · exact distinct

theorem generated_helper (generated : c.kind = .generated) : a.helperRecords c file f = [] := by
  rw [helperRecords, helperCall, generated]
  rfl

theorem generated_invocations (generated : c.kind = .generated) (package : Package) :
    c.invocations f.source package = Generated.invocations f.source := by
  rw [Convention.invocations, generated]

theorem recordsIn_perm (generated : c.kind = .generated) :
    (a.recordsIn t c file packages f).Perm
      ((Generated.invocations f.source).flatMap (a.recordsOf t c file packages f)) := by
  unfold recordsIn
  simp only [generated_invocations generated]
  exact flatMap_filterMap_swap _ packages _

theorem recordsIn_length (generated : c.kind = .generated) :
    (a.recordsIn t c file packages f).length =
      ((Generated.invocations f.source).map fun i => packages.countP (a.answers t c i)).sum := by
  rw [(recordsIn_perm generated).length_eq, List.length_flatMap]
  simp only [recordsOf_length]

-- A call gives a record for each imported package that answers it, so there are more records than calls
-- exactly if further packages answer more often than no package does.
theorem calls_fan_out (a : Analyzer) (file : Go.SourceFile) (s : State)
    (generated : (a.conventionOf file).kind = .generated) :
    let c := a.conventionOf file
    let packages := c.packages file.imports
    let t := after (a.analyze file) s
    (packages.map (·.importPath)).Nodup ∧
      (∀ past, Faithful a.vendor past s → Consistent a.vendor (past ++ a.lookups file) →
        ∀ l ∈ a.lookups file, a.vendor.recalled? t l = a.vendor.direct? l) ∧
      answer (a.analyze file) s = file.functions.flatMap (a.recordsIn t c file packages) ∧
      ∀ f : Go.Function,
        let calls := Generated.invocations f.source
        let records := a.recordsIn t c file packages f
        let counts := calls.map fun i => packages.countP (a.answers t c i)
        records.Perm (calls.flatMap (a.recordsOf t c file packages f)) ∧
          (∀ i, (a.recordsOf t c file packages f i).map (fun call => (call.operationId, call.sdkPath)) =
            (packages.filter (a.answers t c i)).map fun package => (i.function, package.importPath)) ∧
          records.length = counts.sum ∧
          (records.length ≤ (Generated.invocation.findAll f.source).length ↔
            (counts.map (· - 1)).sum ≤ counts.countP (· == 0)) ∧
          ((∀ n ∈ counts, n ≤ 1) → records.length ≤ (Generated.invocation.findAll f.source).length) := by
  intro c packages t
  refine ⟨?_, fun past valid consistent => recalled_direct valid consistent, ?_, ?_⟩
  · have imported : packages = Generated.packages c.marker file.imports := by
      simp only [packages, c, Convention.packages, generated]
    rw [imported]
    exact packages_distinct _ _
  · rw [analyze_recorded]
    simp only [generated_helper generated, List.append_nil]
    rfl
  · intro f calls records counts
    have found : (Generated.invocation.findAll f.source).length = counts.length := by
      simp only [counts, calls, Generated.invocations, List.length_map]
    have total : records.length = counts.sum := recordsIn_length generated
    refine ⟨recordsIn_perm generated, fun i => recordsOf_sources generated, total, ?_, ?_⟩
    · rw [total, found]
      exact sum_le_length_iff counts
    · intro single
      rw [total, found]
      exact (List.sum_le_card_nsmul counts 1 single).trans_eq (Nat.mul_one _)

def networkFiles : List (Path × Body) :=
  [(⟨"v/gen/vpc/v2/vpc_client.go"⟩, .text "func List()\x7bd := GenReqDefForList()\x7d"),
   (⟨"v/gen/vpc/v3/vpc_client.go"⟩, .text "func List()\x7bd := GenReqDefForList()\x7d"),
   (⟨"v/gen/vpc/v2/vpc_meta.go"⟩,
    .text "func GenReqDefForList()\x7bx.WithMethod(http.MethodGet).WithPath(\"v2\")\x7d"),
   (⟨"v/gen/vpc/v3/vpc_meta.go"⟩,
    .text "func GenReqDefForList()\x7bx.WithMethod(http.MethodGet).WithPath(\"v3\")\x7d")]

def networks : Analyzer where
  vendor := ⟨.ofFiles networkFiles, ⟨"v"⟩⟩
  index := {}
  registry := {}
  rest := .of .rest none
  generated := .of .generated (some "gen/")

def listVpcs : Go.Function := ⟨"read", "r, err := client.List(q)", "()", 0, 0, 1, false⟩

def vpcList : Go.SourceFile where
  path := ⟨"a.go"⟩
  source := ""
  package := none
  imports := [⟨none, "gen/vpc/v2"⟩, ⟨none, "gen/vpc/v3"⟩]
  functions := [listVpcs]
  literals := []

theorem networks_generated : (networks.conventionOf vpcList).kind = .generated := by decide +kernel

-- Listing the files has nothing to sort.
theorem networks_listed :
    networks = networks.withTree ⟨(SourceTree.ofFiles networkFiles).isFile, (SourceTree.ofFiles networkFiles).read?, fun dir =>
      networkFiles.filterMap fun f => SourceTree.nameIn? dir.components f.1.components⟩ := by
  have names : networkFiles.map (fun f => f.1.components.getLast?) =
      ["vpc_client.go", "vpc_client.go", "vpc_meta.go", "vpc_meta.go"].map (fun n => some (.name n)) := by
    decide +kernel
  rw [← SourceTree.ofFiles_ordered]
  · rfl
  · have ordered : ["vpc_client.go", "vpc_client.go", "vpc_meta.go", "vpc_meta.go"].Pairwise (· ≤ ·) := by
      decide +kernel
    have listed : (networkFiles.map (fun f => f.1.components.getLast?)).Pairwise fun x y =>
        ∀ m n, x = some (.name m) → y = some (.name n) → m ≤ n := by
      rw [names]
      refine List.pairwise_map.mpr (ordered.imp ?_)
      intro m n below m' n' first second
      cases first
      cases second
      exact below
    exact List.pairwise_map.mp listed

def recordedIn (version : String) : Call where
  url := version
  method := .get
  operationId := "List"
  service := Service.unknown
  sdkPath := "gen/vpc/" ++ version

theorem networks_calls : answer (networks.analyze vpcList) {} = [recordedIn "v2", recordedIn "v3"] := by
  rw [networks_listed]
  decide +kernel

-- Both packages answer the one call.
theorem calls_fan_out_networks :
    (networks.conventionOf vpcList).kind = .generated ∧
      ((Generated.invocations listVpcs.source).map fun i =>
        ((networks.conventionOf vpcList).packages vpcList.imports).countP
          (networks.answers (after (networks.analyze vpcList) {}) (networks.conventionOf vpcList) i)).sum = 2 := by
  obtain ⟨_, _, whole, each⟩ := calls_fan_out networks vpcList {} networks_generated
  obtain ⟨_, _, total, _⟩ := each listVpcs
  have single : vpcList.functions = [listVpcs] := rfl
  rw [networks_calls, single, List.flatMap_singleton] at whole
  refine ⟨networks_generated, ?_⟩
  rw [← total, ← whole]
  rfl

-- One call is recorded as a call into either version.
theorem call_recorded_twice :
    (networks.conventionOf vpcList).kind = .generated ∧ vpcList.functions = [listVpcs] ∧
      (Generated.invocation.findAll listVpcs.source).length = 1 ∧
      (answer (networks.analyze vpcList) {}).map (·.sdkPath) = ["gen/vpc/v2", "gen/vpc/v3"] ∧
      ¬ (answer (networks.analyze vpcList) {}).length ≤ (Generated.invocation.findAll listVpcs.source).length := by
  rw [networks_calls]
  decide +kernel

end Analyzer

end CallAtlas
