import CallAtlas.Proofs.Analysis.Locality
import CallAtlas.Proofs.Analysis.Runs
import CallAtlas.Proofs.Document.ProjectIds
import CallAtlas.Proofs.Sdk.Offers

namespace CallAtlas

open CallAtlas.Text Sdk Sdk.Resolving Sdk.Vendor

theorem ApiComment.readLines_urls {path : Path} {n : Nat} {source : List String} {found calls : List Call}
    (read : (readLines path n source found).value = .ok calls) :
    ∀ c ∈ calls, c ∈ found ∨
      ∃ line ∈ source, ∃ product method, readLine line = .call product method c.url := by
  induction source generalizing n found with
  | nil =>
    cases read
    intro c member
    exact .inl (List.mem_reverse.mp member)
  | cons line rest ih =>
    have later : ∀ found, (readLines path (n + 1) rest found).value = .ok calls → ∀ c ∈ calls, c ∈ found ∨
        ∃ line' ∈ line :: rest, ∃ product method, readLine line' = .call product method c.url := by
      intro found read c member
      rcases ih read c member with old | ⟨line', inside, shown⟩
      · exact .inl old
      · exact .inr ⟨line', List.mem_cons_of_mem _ inside, shown⟩
    rw [readLines] at read
    cases shown : readLine line with
    | none =>
      rw [shown] at read
      exact later found read
    | malformed =>
      rw [shown] at read
      exact later found read
    | badMethod text =>
      rw [shown] at read
      exact later found read
    | call product method url =>
      rw [shown] at read
      have next : (readLines path (n + 1) rest (record product method url :: found)).value = .ok calls := by
        dsimp only at read
        split at read
        · split at read
          · cases read
          · exact read
        · exact read
      intro c member
      rcases later _ next c member with new | shown'
      · rcases List.mem_cons.mp new with rfl | old
        · exact .inr ⟨line, List.mem_cons_self, product, method, shown⟩
        · exact .inl old
      · exact .inr shown'

theorem Call.mem_of_mem_distinct {calls : List Call} {c : Call} (member : c ∈ distinct calls) : c ∈ calls := by
  have all : ∀ m : SortedMap Identity Call, c ∈ (calls.foldl (fun m c => m.insertNew c.key c) m).values →
      c ∈ m.values ∨ c ∈ calls := by
    clear member
    induction calls with
    | nil => exact fun _ member => .inl member
    | cons first rest ih =>
      intro m member
      rcases ih _ member with old | later
      · rcases SortedMap.mem_values_insertNew old with before | rfl
        · exact .inl before
        · exact .inr List.mem_cons_self
      · exact .inr (List.mem_cons_of_mem _ later)
  rcases all _ member with none | given
  · cases none
  · exact given

namespace Analyzer

-- The URLs that a call in a file may have. The query of an endpoint's URL is cut off, and the tags
-- package leaves open a resource type, which is then read off the arguments of the call.
inductive Template (a : Analyzer) (file : Go.SourceFile) : String → Prop where
  | endpoint {url : String} (offers : a.vendor.tree.Offers url) : Template a file (stripQuery url)
  | filled {url : String} {f : Go.Function} {package : Package} {i : Invocation} {m : Match}
      (rest : (a.conventionOf file).kind = .rest) (offers : a.vendor.tree.Offers url)
      (member : f ∈ file.functions) (invoked : i ∈ (a.conventionOf file).invocations f.source package)
      (typed : Tag.resourceType.find? i.trailing = some m) :
      Template a file (replace (stripQuery url) "\x7bresourceType\x7d" (m.group 0))
  | helper {f : Go.Function} {h : Tag.HelperCall} (rest : (a.conventionOf file).kind = .rest)
      (member : f ∈ file.functions) (called : Tag.helperCall? f.source = some h) :
      Template a file (Tag.helperRecord h {}).url
  | comment {line product url : String} {method : Method} (member : line ∈ lines file.source)
      (shown : ApiComment.readLine line = .call product method url) : Template a file url

-- A property of URLs that every way of making a call gives it. An annotation is no part of this.
structure Covers (a : Analyzer) (file : Go.SourceFile) (P : String → Prop) : Prop where
  endpoint {url : String} (offers : a.vendor.tree.Offers url) : P (stripQuery url)
  filled {url : String} {f : Go.Function} {package : Package} {i : Invocation} {m : Match}
    (rest : (a.conventionOf file).kind = .rest) (offers : a.vendor.tree.Offers url)
    (member : f ∈ file.functions) (invoked : i ∈ (a.conventionOf file).invocations f.source package)
    (typed : Tag.resourceType.find? i.trailing = some m) :
    P (replace (stripQuery url) "\x7bresourceType\x7d" (m.group 0))
  helper {f : Go.Function} {h : Tag.HelperCall} (rest : (a.conventionOf file).kind = .rest)
    (member : f ∈ file.functions) (called : Tag.helperCall? f.source = some h) : P (Tag.helperRecord h {}).url

variable {a : Analyzer} {file : Go.SourceFile} {P : String → Prop}

def Among (P : String → Prop) (calls : List Call) : Prop := ∀ c ∈ calls, P c.url

theorem Among.flatten {found : List (List Call)} (each : ∀ calls ∈ found, Among P calls) :
    Among P found.flatten := by
  intro c member
  obtain ⟨calls, inside, member⟩ := List.mem_flatten.mp member
  exact each calls inside c member

theorem callOf?_among (covers : a.Covers file P) {f : Go.Function} (member : f ∈ file.functions)
    {package : Package} {i : Invocation}
    (invoked : i ∈ (a.conventionOf file).invocations f.source package) :
    Ensures (Offered a.vendor.tree) (fun call => Among P call.toList)
      (a.callOf? (a.conventionOf file) file f package i) := by
  intro s offered
  refine ⟨?_, ?_⟩
  · intro call made
    obtain ⟨e, service, found, shape⟩ := callOf?_made (Option.mem_toList.mp made)
    have offers : a.vendor.tree.Offers e.url := (a.vendor.lookUp_offered _ s offered).1 e found
    rcases shape with rfl | ⟨rest, rfl⟩
    · exact covers.endpoint offers
    · unfold Tag.fillType
      dsimp only
      split
      · rename_i m typed
        exact covers.filled rest offers member invoked typed
      · exact covers.endpoint offers
  · rw [(a.callOf?_asks _ file f package i).leaves]
    exact (a.vendor.lookUpAll_offered _ s offered).2

theorem helperCall_among (covers : a.Covers file P) {f : Go.Function} (member : f ∈ file.functions) :
    Ensures (Offered a.vendor.tree) (Among P) (a.helperCall (a.conventionOf file) file f) := by
  unfold helperCall
  split
  · rename_i rest
    cases called : Tag.helperCall? f.source with
    | none => exact .pure nofun
    | some h =>
      refine .lift _ (.pure ?_)
      intro c made
      cases List.mem_singleton.mp made
      exact covers.helper rest member called
  · exact .pure nofun

theorem callsAt_among (covers : a.Covers file P) {site : Site} (inside : site.In (a.conventionOf file) file) :
    Ensures (Offered a.vendor.tree) (Among P) (a.callsAt (a.conventionOf file) file site) := by
  cases site with
  | invocation f package i => exact (callOf?_among covers inside.1 inside.2).map id
  | function f => exact helperCall_among covers inside

theorem analyze_among (covers : a.Covers file P) :
    Ensures (Offered a.vendor.tree) (Among P) (a.analyze file) := by
  rw [analyze_sites]
  refine (Ensures.mapM fun site member => ?_).map Among.flatten
  exact callsAt_among covers (a.sites_in file site member)

def Templated (a : Analyzer) (file : Go.SourceFile) (calls : List Call) : Prop :=
  ∀ c ∈ calls, a.Template file c.url

theorem template_covers : a.Covers file (a.Template file) := ⟨.endpoint, .filled, .helper⟩

theorem resourceCalls_templated (a : Analyzer) (file : Go.SourceFile) (comments : Bool) :
    Ensures (Offered a.vendor.tree) (fun r => ∀ calls, r = .ok calls → a.Templated file calls)
      (a.resourceCalls file comments) := by
  refine (analyze_among template_covers).bind fun calls templated => ?_
  split
  · refine .lift _ ?_
    cases read : (ApiComment.calls file).value with
    | error conflict => exact .pure nofun
    | ok more =>
      refine .pure ?_
      rintro _ ⟨⟩ c member
      rcases List.mem_append.mp (Call.mem_of_mem_distinct member) with found | annotated
      · exact templated c found
      · rcases ApiComment.readLines_urls read c annotated with none | ⟨line, inside, _, _, shown⟩
        · cases none
        · exact .comment inside shown
  · refine .pure ?_
    rintro _ ⟨⟩ c member
    exact templated c (Call.mem_of_mem_distinct member)

-- In whatever state earlier files have left the packages.
theorem project_ids_exact (a : Analyzer) (past : List Lookup) (file : Go.SourceFile) (comments : Bool)
    {calls : List Call} (single : ∀ url, a.Template file url → projects url ≤ 1)
    (given : answer (a.resourceCalls file comments) (after (a.vendor.lookUpAll past) {}) = .ok calls) :
    ∀ c ∈ calls, a.Template file c.url ∧
      (projects c.fullPath ≤ 1 ↔
        c.annotated = true ∨ c.service.projects = 0 ∨ c.service.projects = 1 ∧ projects c.url = 0) := by
  intro c member
  have start := (a.vendor.lookUpAll_offered past {} (offered_start _)).2
  have template := (a.resourceCalls_templated file comments _ start).1 calls given c member
  have once := single c.url template
  refine ⟨template, ?_⟩
  rw [c.projects_fullPath]
  cases c.annotated with
  | true => simp [once]
  | false =>
    simp only [Bool.false_eq_true, if_false, false_or]
    omega

def alarmFiles : List (Path × Body) :=
  [(⟨"v/gen/aom/aom_client.go"⟩,
    .text "func AddRule()\x7bd := GenReqDefForAddRule()\x7d"),
   (⟨"v/gen/aom/aom_meta.go"⟩,
    .text "func GenReqDefForAddRule()\x7bx.WithMethod(http.MethodPost).WithPath(\"/v2/\x7bproject_id\x7d/rules\")\x7d")]

def alarms : Analyzer where
  vendor := ⟨.ofFiles alarmFiles, ⟨"v"⟩⟩
  index := {}
  registry := .ofList [("aom", { name := "aom", version := "v2" })]
  rest := .of .rest none
  generated := .of .generated (some "gen/")

def alarmRule : Go.SourceFile where
  path := ⟨"a.go"⟩
  source := ""
  package := none
  imports := [⟨none, "gen/aom"⟩]
  functions :=
    [⟨"create", "client, err := cfg.AomClient(r)\nresponse, err := client.AddRule(q)", "()", 0, 0, 1, false⟩]
  literals := []

-- Listing the files has nothing to sort.
theorem alarms_listed :
    alarms = alarms.withTree ⟨(SourceTree.ofFiles alarmFiles).isFile, (SourceTree.ofFiles alarmFiles).read?, fun dir =>
      alarmFiles.filterMap fun f => SourceTree.nameIn? dir.components f.1.components⟩ := by
  have client : (⟨"v/gen/aom/aom_client.go"⟩ : Path).components.getLast? = some (.name "aom_client.go") := by
    decide +kernel
  have described : (⟨"v/gen/aom/aom_meta.go"⟩ : Path).components.getLast? = some (.name "aom_meta.go") := by
    decide +kernel
  rw [← SourceTree.ofFiles_ordered]
  · rfl
  · refine List.pairwise_pair.mpr ?_
    intro m n first second
    cases client.symm.trans first
    cases described.symm.trans second
    decide +kernel

theorem alarms_single {url : String} (template : alarms.Template alarmRule url) : projects url ≤ 1 := by
  have generated : (alarms.conventionOf alarmRule).kind = .generated := by decide +kernel
  cases template with
  | endpoint offers =>
    have each : ∀ url ∈ alarmFiles.flatMap fileUrls ++ fixedUrls.map (·.url), projects (stripQuery url) ≤ 1 := by
      decide +kernel
    exact each _ (SourceTree.ofFiles_offers offers)
  | filled rest =>
    rw [generated] at rest
    cases rest
  | helper rest =>
    rw [generated] at rest
    cases rest
  | comment member =>
    have none : lines alarmRule.source = [] := by decide
    rw [none] at member
    cases member

def addRule : Call where
  url := "/v2/\x7bproject_id\x7d/rules"
  method := .post
  operationId := "AddRule"
  service := { name := "aom", version := "v2" }
  sdkPath := "gen/aom"

theorem alarms_calls : answer (alarms.resourceCalls alarmRule true) {} = .ok [addRule] := by
  rw [alarms_listed]
  decide +kernel

theorem project_ids_exact_alarms :
    answer (alarms.resourceCalls alarmRule true) (after (alarms.vendor.lookUpAll []) {}) = .ok [addRule] ∧
      ∀ c ∈ [addRule], alarms.Template alarmRule c.url ∧
        (projects c.fullPath ≤ 1 ↔
          c.annotated = true ∨ c.service.projects = 0 ∨ c.service.projects = 1 ∧ projects c.url = 0) :=
  ⟨alarms_calls, project_ids_exact alarms [] alarmRule true (fun _ => alarms_single) alarms_calls⟩

-- The path that the package gives is complete, and the service puts version and project before it
-- once more.
theorem complete_path_extended :
    (∀ url, alarms.Template alarmRule url → projects url ≤ 1) ∧
      answer (alarms.resourceCalls alarmRule true) {} = .ok [addRule] ∧
      addRule.url = "/v2/\x7bproject_id\x7d/rules" ∧
      addRule.fullPath = "/v2/\x7bproject_id\x7d/v2/\x7bproject_id\x7d/rules" ∧
      projects addRule.fullPath = 2 :=
  ⟨fun _ => alarms_single, alarms_calls, rfl, by decide +kernel, by decide +kernel⟩

end Analyzer

end CallAtlas
