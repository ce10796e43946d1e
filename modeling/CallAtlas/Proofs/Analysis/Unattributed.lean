import CallAtlas.Proofs.Analysis.Recorded
import CallAtlas.Proofs.Trace.Unheld

namespace CallAtlas

open CallAtlas.Text Sdk Sdk.Resolving Sdk.Vendor

namespace Analyzer

variable {a : Analyzer} {c : Convention} {file : Go.SourceFile} {f : Go.Function} {package : Package}
  {i : Invocation} {e : Endpoint} {receiver : String}

-- What the catalog has for a constructor. A constructor or a service that it does not have is empty.
def catalogued (a : Analyzer) (c : Convention) (b : Trace.Binding) : Service :=
  match c.category? b.constructorName a.index with
  | none => {}
  | some key => (a.registry.get? key).getD {}

def serviceOf (a : Analyzer) (c : Convention) : Except Trace.Miss Trace.Binding → Service
  | .error _ => Service.unknown
  | .ok b => a.catalogued c b

-- Calls into the tags package carry the project.
def inPackage (package : Package) (s : Service) : Service :=
  if package.localName == Tag.packageAlias then { s with withoutProjectId := false } else s

theorem service_traced :
    (a.service c file receiver f).value = a.serviceOf c (Trace.resolve c file receiver f).value := by
  rw [service, Noted.value_bind]
  cases (Trace.resolve c file receiver f).value with
  | error miss => rfl
  | ok b =>
    rw [serviceOf, catalogued]
    dsimp only
    cases c.category? b.constructorName a.index with
    | none => rfl
    | some key =>
      dsimp only
      cases a.registry.get? key <;> rfl

theorem recordAs_service (rest : c.kind = .rest) : (a.recordAs c file f package i e).service =
    inPackage package (a.serviceOf c (Trace.resolve c file i.receiver f).value) := by
  rw [recordAs, inPackage, ← service_traced, rest, decide_eq_true rfl, Bool.true_and]
  split
  · rw [Tag.fillType]
    split <;> rfl
  · rfl

theorem inPackage_unknown : inPackage package Service.unknown = Service.unknown := by
  rw [inPackage]
  split <;> rfl

-- Records of calls without a variable, and when their services are unknown.
theorem unheld_calls_exact (a : Analyzer) (file : Go.SourceFile) (s : State)
    (rest : (a.conventionOf file).kind = .rest) :
    let c := a.conventionOf file
    let t := after (a.analyze file) s
    answer (a.analyze file) s = file.functions.flatMap (fun f =>
        a.recordsIn t c file (c.packages file.imports) f ++ a.helperRecords c file f) ∧
      ∀ f package i call, i.receiver = "" → a.recordIn? t c file f package i = some call →
        (∃ result, ∀ other, Trace.Unheld c file.functions f other ↔ other = result) ∧
        (∀ result, Trace.Unheld c file.functions f result →
          call.service = inPackage package (a.serviceOf c result)) ∧
        (Trace.Untaken f.params → Trace.Unpaired f.source → ¬ Trace.ChosenIn f.source.toList →
          call.service = Service.unknown) ∧
        (call.service = Service.unknown ↔
          (∃ miss, Trace.Unheld c file.functions f (.error miss)) ∨
            ∃ b, Trace.Unheld c file.functions f (.ok b) ∧
              inPackage package (a.catalogued c b) = Service.unknown) := by
  intro c t
  refine ⟨a.analyze_recorded file s, ?_⟩
  intro f package i call bare recorded
  obtain ⟨e, _, rfl⟩ := Option.map_eq_some_iff.mp recorded
  have traced : ∀ result, Trace.Unheld c file.functions f result →
      (a.recordAs c file f package i e).service = inPackage package (a.serviceOf c result) := by
    intro result unheld
    rw [recordAs_service rest, bare, unheld.traced rest]
  refine ⟨⟨_, fun other => (Trace.resolve_unheld rest).symm.trans eq_comm⟩, traced, ?_, ?_⟩
  · intro untaken unpaired unchosen
    rw [traced _ (.nothing untaken unpaired unchosen)]
    exact inPackage_unknown
  · have unheld : Trace.Unheld c file.functions f (Trace.resolve c file "" f).value := Trace.unheld_of_resolve rest
    rw [traced _ unheld]
    constructor
    · intro unknown
      cases found : (Trace.resolve c file "" f).value with
      | error miss =>
        rw [found] at unheld
        exact .inl ⟨miss, unheld⟩
      | ok b =>
        rw [found] at unheld unknown
        exact .inr ⟨b, unheld, unknown⟩
    · rintro (⟨miss, missed⟩ | ⟨b, held, unknown⟩)
      · rw [missed.traced rest]
        exact inPackage_unknown
      · rw [held.traced rest]
        exact unknown

def catalogues : Analyzer :=
  { sample with index := ⟨.ofList [("VpcClient", "vpc")]⟩, registry := .ofList [("vpc", { name := "vpc" })] }

def declaring (name declarations : String) : Go.Function :=
  ⟨name, declarations ++ "q := ip.Get(&o)", "()", 0, 0, 1, false⟩

def alone : Go.Function := declaring "list" ""

def behindClient : Go.Function := declaring "read" "c, err := cfg.VpcClient(r)\n"

def readers : Go.SourceFile := { user "a.go" with functions := [alone, behindClient] }

def bareCall : Invocation := ⟨"Get", "", "&o)"⟩

def recordedAs (service : Service) : Call where
  url := "ip"
  method := .get
  operationId := "Get"
  service := service
  sdkPath := "sdk/ip"

theorem readers_rest : (catalogues.conventionOf readers).kind = .rest := by decide +kernel

theorem readers_calls : answer (catalogues.analyze readers) {} = [recordedAs .unknown, recordedAs { name := "vpc" }] := by
  decide +kernel

def ipPackage : Package := ⟨"ip", "sdk/ip"⟩

theorem readers_recorded :
    [alone, behindClient].map (fun f => catalogues.recordIn? (after (catalogues.analyze readers) {})
        (catalogues.conventionOf readers) readers f ipPackage bareCall) =
      [some (recordedAs .unknown), some (recordedAs { name := "vpc" })] := by
  decide +kernel

theorem alone_bare :
    Trace.Untaken alone.params ∧ Trace.Unpaired alone.source ∧ ¬ Trace.ChosenIn alone.source.toList := by
  refine ⟨Trace.parameterClient?_untaken.mp ?_, Trace.unpaired_iff.mpr ?_, Trace.unchosen_iff.mpr ?_⟩ <;>
    decide +kernel

theorem behindClient_held :
    Trace.Unheld (catalogues.conventionOf readers) readers.functions behindClient (.ok ⟨"", "VpcClient"⟩) := by
  have traced : Trace.told (Trace.resolve (catalogues.conventionOf readers) readers "" behindClient).value =
      Trace.told (.ok ⟨"", "VpcClient"⟩) := by
    decide +kernel
  exact (Trace.resolve_unheld readers_rest).mp (Trace.told_inj traced)

-- Alone it has no service, and behind the declaration it has that of the client declared.
theorem unheld_calls_exact_readers :
    (catalogues.conventionOf readers).kind = .rest ∧ bareCall.receiver = "" ∧
      (recordedAs .unknown).service = Service.unknown ∧
      (recordedAs { name := "vpc" }).service = inPackage ipPackage
        (catalogues.serviceOf (catalogues.conventionOf readers) (.ok ⟨"", "VpcClient"⟩)) := by
  have calls := (unheld_calls_exact catalogues readers {} readers_rest).2
  obtain ⟨first, later⟩ := List.cons.inj readers_recorded
  obtain ⟨second, _⟩ := List.cons.inj later
  obtain ⟨untaken, unpaired, unchosen⟩ := alone_bare
  refine ⟨readers_rest, rfl, ?_, ?_⟩
  · exact (calls alone ipPackage bareCall _ rfl first).2.2.1 untaken unpaired unchosen
  · exact (calls behindClient ipPackage bareCall _ rfl second).2.1 _ behindClient_held

theorem unheld_call_attributed :
    (catalogues.conventionOf readers).kind = .rest ∧
      Rest.invocations behindClient.source ipPackage = [bareCall] ∧ bareCall.receiver = "" ∧
      answer (catalogues.analyze readers) {} = [recordedAs .unknown, recordedAs { name := "vpc" }] ∧
      (recordedAs { name := "vpc" }).service ≠ Service.unknown :=
  ⟨readers_rest, by decide +kernel, rfl, readers_calls, by decide⟩

end Analyzer

end CallAtlas
