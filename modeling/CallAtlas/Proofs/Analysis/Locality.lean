import CallAtlas.Proofs.Analysis.Runs
import CallAtlas.Proofs.Sdk.Trees
import Mathlib.Data.List.Forall2

namespace CallAtlas

open CallAtlas.Text Sdk Sdk.Resolving Sdk.Vendor

namespace Sdk.Resolving

variable {here : Path → Bool} {R : α → β → Prop} {S : γ → δ → Prop}

-- From states that match, the work in one tree and that in the other leave states that match, and
-- their results are related.
def Matched (here : Path → Bool) (R : α → β → Prop) (m : Resolving α) (n : Resolving β) : Prop :=
  ∀ s t, Matching here s t →
    R (answer m s) (answer n t) ∧ Matching here (after m s) (after n t)

theorem Matched.pure {a : α} {b : β} (related : R a b) :
    Matched here R (Pure.pure a) (Pure.pure b) :=
  fun _ _ matching => ⟨related, matching⟩

theorem Matched.bind {m : Resolving α} {n : Resolving β} {f : α → Resolving γ} {g : β → Resolving δ}
    (first : Matched here R m n) (second : ∀ a b, R a b → Matched here S (f a) (g b)) :
    Matched here S (m >>= f) (n >>= g) := by
  intro s t matching
  obtain ⟨related, middle⟩ := first s t matching
  exact second _ _ related _ _ middle

-- Services are traced without a look at the tree.
theorem Matched.lift (n : Noted α) {f : α → Resolving γ} {g : α → Resolving δ}
    (second : ∀ a, Matched here S (f a) (g a)) :
    Matched here S ((liftM n : Resolving α) >>= f) ((liftM n : Resolving α) >>= g) :=
  second n.value

theorem Matched.map {m : Resolving α} {n : Resolving β} {f : α → γ} {g : β → δ}
    (matched : Matched here R m n) (kept : ∀ {a b}, R a b → S (f a) (g b)) :
    Matched here S (f <$> m) (g <$> n) :=
  fun s t matching => ⟨kept (matched s t matching).1, (matched s t matching).2⟩

theorem Matched.mapM {f : γ → Resolving α} {g : γ → Resolving β} {cs : List γ}
    (each : ∀ c ∈ cs, Matched here R (f c) (g c)) :
    Matched here (List.Forall₂ R) (cs.mapM f) (cs.mapM g) := by
  induction cs with
  | nil => exact .pure .nil
  | cons c rest ih =>
    obtain ⟨first, others⟩ := List.forall_mem_cons.mp each
    rw [List.mapM_cons, List.mapM_cons]
    exact first.bind fun _ _ one => (ih others).bind fun _ _ later => .pure (.cons one later)

end Sdk.Resolving

namespace Analyzer

variable {a : Analyzer} {tree : SourceTree} {here : Path → Bool}

def withTree (a : Analyzer) (tree : SourceTree) : Analyzer :=
  { a with vendor := a.vendor.withTree tree }

-- The calls into packages of other directories.
def callsElsewhere (a : Analyzer) (here : Path → Bool) (calls : List Call) : List Call :=
  calls.filter fun c => !here (a.vendor.packageDir c.sdkPath)

def SameElsewhere (a : Analyzer) (here : Path → Bool) (x y : List Call) : Prop :=
  a.callsElsewhere here x = a.callsElsewhere here y

theorem SameElsewhere.flatten {xs ys : List (List Call)}
    (same : List.Forall₂ (a.SameElsewhere here) xs ys) :
    a.SameElsewhere here xs.flatten ys.flatten := by
  unfold SameElsewhere callsElsewhere at *
  induction same with
  | nil => rfl
  | cons first _ ih => rw [List.flatten_cons, List.flatten_cons, List.filter_append, List.filter_append, first, ih]

theorem fillType_sdkPath (trailing : String) (c : Call) : (Tag.fillType trailing c).sdkPath = c.sdkPath := by
  unfold Tag.fillType
  split <;> rfl

theorem callOf?_sdkPath {c : Convention} {file : Go.SourceFile} {f : Go.Function} {package : Package}
    {i : Invocation} {s : State} {call : Call} (made : answer (a.callOf? c file f package i) s = some call) :
    call.sdkPath = package.importPath := by
  obtain ⟨e, service, _, rfl | ⟨_, rfl⟩⟩ := callOf?_made made
  · rfl
  · exact fillType_sdkPath i.trailing _

-- A call into the place itself does not count, whatever it is.
theorem call_here {c : Convention} {file : Go.SourceFile} {f : Go.Function} {package : Package}
    {i : Invocation} (place : here (a.vendor.packageDir package.importPath) = true) (s : State) :
    a.callsElsewhere here (answer (a.callOf? c file f package i) s).toList = [] := by
  cases made : answer (a.callOf? c file f package i) s with
  | none => rfl
  | some call =>
    have path := callOf?_sdkPath made
    simp [callsElsewhere, path, place]

section
variable (lists : a.vendor.tree.ListsNames) (differ : SourceTree.DifferIn here a.vendor.tree tree)
include lists differ

theorem callOf?_matched (c : Convention) (file : Go.SourceFile) (f : Go.Function) (package : Package)
    {i : Invocation} (name : Dotless i.function) :
    Matched here (fun x y => a.SameElsewhere here x.toList y.toList) (a.callOf? c file f package i)
      ((a.withTree tree).callOf? c file f package i) := by
  cases place : here (a.vendor.packageDir package.importPath) with
  | true =>
    intro s t matching
    refine ⟨(call_here place s).trans (call_here (a := a.withTree tree) place t).symm, ?_⟩
    rw [(a.callOf?_asks c file f package i).leaves, ((a.withTree tree).callOf?_asks c file f package i).leaves]
    cases lookupOf? c package i with
    | none => exact matching
    | some l => exact (lookUp_matching lists differ l matching).1
  | false =>
    unfold callOf?
    split
    · exact .pure rfl
    · have found : Matched here Eq (a.vendor.endpoint? c package.importPath i.function)
          ((a.withTree tree).vendor.endpoint? c package.importPath i.function) := by
        intro s t matching
        have looked := lookUp_matching lists differ ⟨c, package.importPath, i.function⟩ matching
        exact ⟨looked.2 place name, looked.1⟩
      refine found.bind ?_
      rintro e _ rfl
      cases e with
      | none => exact .pure rfl
      | some e =>
        dsimp only
        split
        · exact .pure rfl
        · refine .lift _ fun s => ?_
          split <;> exact .pure rfl

omit lists differ in
theorem helperCall_matched (c : Convention) (file : Go.SourceFile) (f : Go.Function) :
    Matched here (a.SameElsewhere here) (a.helperCall c file f)
      ((a.withTree tree).helperCall c file f) := by
  unfold helperCall
  split
  · split
    · exact .pure rfl
    · exact .lift _ fun s => .pure rfl
  · exact .pure rfl

theorem callsAt_matched {c : Convention} {file : Go.SourceFile} {site : Site} (inside : site.In c file) :
    Matched here (a.SameElsewhere here) (a.callsAt c file site) ((a.withTree tree).callsAt c file site) := by
  cases site with
  | invocation f package i =>
    have name := invocations_dotless c f.source package i inside.2
    exact (callOf?_matched lists differ c file f package name).map id
  | function f => exact helperCall_matched c file f

theorem analyze_matched (file : Go.SourceFile) :
    Matched here (a.SameElsewhere here) (a.analyze file) ((a.withTree tree).analyze file) := by
  rw [analyze_sites, analyze_sites]
  refine (Matched.mapM fun site member => ?_).map SameElsewhere.flatten
  exact callsAt_matched lists differ (a.sites_in file site member)

end

-- For a file and for a run over files, in both cases from the beginning: the calls are the same and
-- stand in the same order once those into the directory itself are left out.
theorem failures_local (lists : a.vendor.tree.ListsNames)
    (differ : SourceTree.DifferIn here a.vendor.tree tree) :
    (∀ file, a.callsElsewhere here (answer (a.analyze file) {}) =
        a.callsElsewhere here (answer ((a.withTree tree).analyze file) {})) ∧
      ∀ files : List Go.SourceFile,
        List.Forall₂ (fun x y => a.callsElsewhere here x = a.callsElsewhere here y)
          (answer (files.mapM a.analyze) {}) (answer (files.mapM (a.withTree tree).analyze) {}) := by
  have each := analyze_matched lists differ
  have start : Matching here {} {} := matching_refl here {}
  refine ⟨?_, ?_⟩
  · intro file
    exact (each file {} {} start).1
  · intro files
    exact (Matched.mapM (fun file _ => each file) {} {} start).1

-- On a disk the directory counts under every path that leads to it.
theorem disk_failures_local {d d' : Disk} {at_ : Place} (proper : d.Proper) (differ : d.DifferAt at_ d')
    (files : List Go.SourceFile) :
    List.Forall₂ ((a.withTree (.ofDisk d)).SameElsewhere fun dir => d.placeOf? dir == some at_)
      (answer (files.mapM (a.withTree (.ofDisk d)).analyze) {})
      (answer (files.mapM (a.withTree (.ofDisk d')).analyze) {}) := by
  have each := analyze_matched (a := a.withTree (.ofDisk d)) (SourceTree.ofDisk_listsNames proper)
    (SourceTree.ofDisk_differIn differ)
  exact (Matched.mapM (fun file _ => each file) {} {} (matching_refl _ {})).1

def soundFiles : List (Path × Body) :=
  [(⟨"v/sdk/ip/requests.go"⟩, .text "func Get()\x7bc.Get(u())\x7d"),
   (⟨"v/sdk/ip/urls.go"⟩, .text "func u()\x7bx.ServiceURL(\"ip\")\x7d")]

def zoneFiles : List (Path × Body) :=
  [(⟨"v/sdk/zone/requests.go"⟩, .text "func List()\x7bc.Get(u())\x7d"),
   (⟨"v/sdk/zone/urls.go"⟩, .text "func u()\x7bx.ServiceURL(\"zones\")\x7d")]

def spoiledFiles : List (Path × Body) :=
  [(⟨"v/sdk/zone/requests.go"⟩, .raw [0xFF]), (⟨"v/sdk/zone/url.go"⟩, .text "func")]

def sound : Analyzer where
  vendor := ⟨.ofFiles (zoneFiles ++ soundFiles), ⟨"v"⟩⟩
  index := {}
  registry := {}
  rest := .of .rest (some "sdk/")
  generated := .of .generated none

def caller : Go.SourceFile where
  path := ⟨"a.go"⟩
  source := ""
  package := none
  imports := [⟨none, "sdk/zone"⟩, ⟨none, "sdk/ip"⟩]
  functions := [⟨"read", "zone.List(client)\nip.Get(client)", "()", 0, 0, 1, false⟩]
  literals := []

theorem failures_local_spoiled :
    (answer (sound.analyze caller) {}).map Call.url = ["zones", "ip"] ∧
      (answer ((sound.withTree (.ofFiles (spoiledFiles ++ soundFiles))).analyze caller) {}).map Call.url =
        ["ip"] ∧
      sound.callsElsewhere (·.same ⟨"v//sdk/zone"⟩) (answer (sound.analyze caller) {}) =
        sound.callsElsewhere (·.same ⟨"v//sdk/zone"⟩)
          (answer ((sound.withTree (.ofFiles (spoiledFiles ++ soundFiles))).analyze caller) {}) := by
  have mine : ∀ f ∈ zoneFiles, SourceTree.LiesIn ⟨"v//sdk/zone"⟩ f.1 := by
    simp only [zoneFiles, List.forall_mem_cons, List.not_mem_nil, false_implies, implies_true, and_true]
    exact ⟨⟨"requests.go", by decide +kernel⟩, ⟨"urls.go", by decide +kernel⟩⟩
  have yours : ∀ f ∈ spoiledFiles, SourceTree.LiesIn ⟨"v//sdk/zone"⟩ f.1 := by
    simp only [spoiledFiles, List.forall_mem_cons, List.not_mem_nil, false_implies, implies_true, and_true]
    exact ⟨⟨"requests.go", by decide +kernel⟩, ⟨"url.go", by decide +kernel⟩⟩
  have differ := SourceTree.ofFiles_differIn soundFiles mine yours
  refine ⟨by decide +kernel, by decide +kernel, ?_⟩
  exact (failures_local (a := sound) (ofFiles_listsNames _) differ).1 caller

end Analyzer

end CallAtlas
