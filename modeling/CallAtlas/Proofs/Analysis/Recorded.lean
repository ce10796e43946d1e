import CallAtlas.Proofs.Analysis.Runs

namespace CallAtlas

open CallAtlas.Text Sdk Sdk.Resolving

namespace Sdk.Vendor

variable {v : Vendor} {s t u : State} {l : Lookup}

def Marked (s : State) (dir : Path) : Prop := s.cache.packages.any (·.same dir) = true

structure Retains (s t : State) : Prop where
  marks : ∀ d, Marked s d → Marked t d
  entries : ∀ d f, Marked s d → Dotless f →
    t.cache.endpoints.lookup (Cache.key d f) = s.cache.endpoints.lookup (Cache.key d f)

theorem Retains.refl (s : State) : Retains s s := ⟨fun _ marked => marked, fun _ _ _ _ => rfl⟩

theorem Retains.trans (first : Retains s t) (second : Retains t u) : Retains s u := by
  refine ⟨?_, ?_⟩
  · intro d marked
    exact second.marks d (first.marks d marked)
  · intro d f marked name
    rw [second.entries d f (first.marks d marked) name, first.entries d f marked name]

theorem Entered.retains {c : Convention} {dir : Path} (entered : v.Entered c dir s t) (new : ¬ Marked s dir) :
    Retains s t := by
  refine ⟨?_, ?_⟩
  · intro d marked
    rw [Marked, entered.packages, List.any_append, marked, Bool.true_or]
  · intro d f marked name
    have other : d ≠ dir := by
      rintro rfl
      exact new marked
    rw [entered.endpoints d f name, if_neg other, Option.or_none]

theorem lookUp_retains (v : Vendor) (l : Lookup) (s : State) : Retains s (after (v.lookUp l) s) := by
  rw [(v.lookUp_exact l s).2]
  by_cases old : Marked s (v.dirOf l)
  · rw [v.entered_old old]
    exact ⟨fun _ marked => marked, fun _ _ _ _ => rfl⟩
  · have entered := (v.entered_new (c := l.convention) (Bool.eq_false_iff.mpr old)).retains old
    exact ⟨entered.marks, entered.entries⟩

theorem lookUp_marks (v : Vendor) (l : Lookup) (s : State) : Marked (after (v.lookUp l) s) (v.dirOf l) := by
  rw [(v.lookUp_exact l s).2]
  show Marked (v.entered l.convention (v.dirOf l) s) (v.dirOf l)
  by_cases old : Marked s (v.dirOf l)
  · rw [v.entered_old old]
    exact old
  · have entered := v.entered_new (c := l.convention) (Bool.eq_false_iff.mpr old)
    rw [Marked, entered.packages, List.any_append, List.any_cons, Path.same_refl, Bool.true_or, Bool.or_true]

theorem lookUpAll_retains (v : Vendor) (ls : List Lookup) (s : State) : Retains s (after (v.lookUpAll ls) s) := by
  unfold lookUpAll
  induction ls generalizing s with
  | nil => exact .refl s
  | cons l rest ih =>
    rw [after_mapM_cons]
    exact (v.lookUp_retains l s).trans (ih _)

theorem Asks.retains {ls : List Lookup} {m : Resolving α} (asks : Asks v ls m) (s : State) :
    Retains s (after m s) := by
  rw [asks.leaves]
  exact v.lookUpAll_retains ls s

-- What the entries of a state say to a lookup.
def recalled? (v : Vendor) (s : State) (l : Lookup) : Option Endpoint :=
  s.cache.endpoints.lookup (Cache.key (v.dirOf l) l.function)

theorem lookUp_recalled (name : Dotless l.function) (later : Retains (after (v.lookUp l) s) t) :
    answer (v.lookUp l) s = v.recalled? t l := by
  rw [recalled?, later.entries _ _ (v.lookUp_marks l s) name, (v.lookUp_exact l s).1, (v.lookUp_exact l s).2]
  rfl

end Sdk.Vendor

namespace Analyzer

open Sdk.Vendor

variable {a : Analyzer} {c : Convention} {file : Go.SourceFile} {f : Go.Function} {package : Package}
  {i : Invocation} {s t : State}

def recordAs (a : Analyzer) (c : Convention) (file : Go.SourceFile) (f : Go.Function) (package : Package)
    (i : Invocation) (e : Endpoint) : Call :=
  let call := Call.ofEndpoint e i.function (a.service c file i.receiver f).value package.importPath
  if c.kind = .rest && package.localName == Tag.packageAlias then Tag.fillType i.trailing call else call

-- The endpoint that an invocation has: extractions have none, and an empty URL is none.
def endpointIn? (a : Analyzer) (t : State) (c : Convention) (package : Package) (i : Invocation) :
    Option Endpoint :=
  ((lookupOf? c package i).bind (a.vendor.recalled? t)).filter (·.url != "")

def recordIn? (a : Analyzer) (t : State) (c : Convention) (file : Go.SourceFile) (f : Go.Function)
    (package : Package) (i : Invocation) : Option Call :=
  (a.endpointIn? t c package i).map (a.recordAs c file f package i)

def recordsIn (a : Analyzer) (t : State) (c : Convention) (file : Go.SourceFile) (packages : List Package)
    (f : Go.Function) : List Call :=
  packages.flatMap fun package => (c.invocations f.source package).filterMap (a.recordIn? t c file f package)

-- The record of the tag helper is made without a lookup.
def helperRecords (a : Analyzer) (c : Convention) (file : Go.SourceFile) (f : Go.Function) : List Call :=
  answer (a.helperCall c file f) {}

theorem helperCall_recorded : answer (a.helperCall c file f) s = a.helperRecords c file f :=
  (a.helperCall_asks c file f).gives s {} rfl

theorem callOf?_recorded (name : Dotless i.function) (later : Retains (after (a.callOf? c file f package i) s) t) :
    answer (a.callOf? c file f package i) s = a.recordIn? t c file f package i := by
  have asks := a.callOf?_asks c file f package i
  rw [recordIn?, endpointIn?]
  by_cases extracts : startsWith i.function "Extract" = true
  · rw [callOf?, lookupOf?, if_pos extracts, if_pos extracts]
    rfl
  · rw [lookupOf?, if_neg extracts] at asks ⊢
    rw [asks.leaves, Option.toList_some, ← (Asks.lookUp a.vendor _).leaves] at later
    rw [Option.bind_some, ← lookUp_recalled name later, callOf?, if_neg extracts, answer_bind]
    cases looked : answer (a.vendor.lookUp ⟨c, package.importPath, i.function⟩) s with
    | none =>
      have found : answer (a.vendor.endpoint? c package.importPath i.function) s = none := looked
      rw [found]
      rfl
    | some e =>
      have found : answer (a.vendor.endpoint? c package.importPath i.function) s = some e := looked
      rw [found, Option.filter_some, bne]
      dsimp only
      cases e.url == "" with
      | true => rfl
      | false =>
        simp only [Bool.false_eq_true, if_false, Bool.not_false, if_true, Option.map_some, recordAs]
        rw [answer_bind]
        split <;> rfl

def recordsAt (a : Analyzer) (t : State) (c : Convention) (file : Go.SourceFile) : Site → List Call
  | .invocation f package i => (a.recordIn? t c file f package i).toList
  | .function f => a.helperRecords c file f

theorem callsAt_recorded {site : Site} (inside : site.In c file)
    (later : Retains (after (a.callsAt c file site) s) t) :
    answer (a.callsAt c file site) s = a.recordsAt t c file site := by
  cases site with
  | invocation f package i =>
    have name := invocations_dotless c f.source package i inside.2
    exact congrArg Option.toList (callOf?_recorded name later)
  | function f => exact helperCall_recorded

-- What a site has left is still there when the last one has been seen.
theorem mapM_recorded {sites : List Site} (inside : ∀ site ∈ sites, site.In c file)
    (later : Retains (after (sites.mapM (a.callsAt c file)) s) t) :
    answer (sites.mapM (a.callsAt c file)) s = sites.map (a.recordsAt t c file) := by
  induction sites generalizing s with
  | nil => rfl
  | cons site rest ih =>
    obtain ⟨first, others⟩ := List.forall_mem_cons.mp inside
    rw [after_mapM_cons] at later
    have kept := ((Asks.mapM (a.callsAt_asks c file) rest).retains _).trans later
    rw [answer_mapM_cons, List.map_cons, callsAt_recorded first kept, ih others later]

theorem recordsAt_sites (a : Analyzer) (t : State) (file : Go.SourceFile) :
    ((a.sites file).map (a.recordsAt t (a.conventionOf file) file)).flatten =
      file.functions.flatMap fun f =>
        a.recordsIn t (a.conventionOf file) file ((a.conventionOf file).packages file.imports) f ++
          a.helperRecords (a.conventionOf file) file f := by
  rw [← List.flatMap_def, flatMap_sites]
  simp only [recordsAt, recordsIn, List.filterMap_eq_flatMap_toList]

-- The calls of a file are what the state at the end of its analysis answers, function by function.
theorem analyze_recorded (a : Analyzer) (file : Go.SourceFile) (s : State) :
    answer (a.analyze file) s = file.functions.flatMap fun f =>
      a.recordsIn (after (a.analyze file) s) (a.conventionOf file) file
          ((a.conventionOf file).packages file.imports) f ++
        a.helperRecords (a.conventionOf file) file f := by
  rw [← recordsAt_sites, analyze_sites]
  exact congrArg List.flatten (mapM_recorded (a.sites_in file) (.refl _))

-- In files that keep to one spelling of a directory these answers are those of the packages' own tables.
theorem recalled_direct {past : List Lookup} (valid : Faithful a.vendor past s)
    (consistent : Consistent a.vendor (past ++ a.lookups file)) :
    ∀ l ∈ a.lookups file, a.vendor.recalled? (after (a.analyze file) s) l = a.vendor.direct? l := by
  intro l member
  rw [(a.analyze_asks file).leaves]
  have left := (lookUpAll_direct valid consistent (a.lookups_dotless file)).2
  exact left.known l (List.mem_append_right _ member) l.function (a.lookups_dotless file l member)

end Analyzer

end CallAtlas
