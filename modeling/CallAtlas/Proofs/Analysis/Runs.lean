import CallAtlas.Proofs.Analysis.Sites
import CallAtlas.Proofs.Sdk.Memory
import CallAtlas.Proofs.Sdk.Reads

namespace CallAtlas

open CallAtlas.Text Sdk Sdk.Resolving

-- The state that the work leaves is the one that the lookups leave, and its result may depend on
-- their answers and on nothing else.
structure Sdk.Vendor.Asks (v : Vendor) (ls : List Lookup) (m : Resolving α) : Prop where
  leaves : ∀ s, after m s = after (v.lookUpAll ls) s
  gives : ∀ s t, answer (v.lookUpAll ls) s = answer (v.lookUpAll ls) t → answer m s = answer m t

namespace Sdk.Vendor

variable {v : Vendor}

theorem lookUpAll_append (v : Vendor) (first second : List Lookup) (s : State) :
    answer (v.lookUpAll (first ++ second)) s =
        answer (v.lookUpAll first) s ++ answer (v.lookUpAll second) (after (v.lookUpAll first) s) ∧
      after (v.lookUpAll (first ++ second)) s = after (v.lookUpAll second) (after (v.lookUpAll first) s) :=
  mapM_append s v.lookUp first second

theorem lookUpAll_length (v : Vendor) (ls : List Lookup) (s : State) :
    (answer (v.lookUpAll ls) s).length = ls.length := by
  unfold lookUpAll
  induction ls generalizing s with
  | nil => rfl
  | cons l rest ih => rw [answer_mapM_cons, List.length_cons, ih, List.length_cons]

theorem Asks.pure (a : α) : Asks v [] (Pure.pure a : Resolving α) := ⟨fun _ => rfl, fun _ _ _ => rfl⟩

theorem Asks.lookUp (v : Vendor) (l : Lookup) : Asks v [l] (v.lookUp l) := by
  refine ⟨?_, ?_⟩
  · intro s
    exact (after_mapM_cons s v.lookUp l []).symm
  · intro s t same
    unfold lookUpAll at same
    rw [answer_mapM_cons, answer_mapM_cons] at same
    exact (List.cons.inj same).1

theorem Asks.bind {ls more : List Lookup} {m : Resolving α} {f : α → Resolving β} (first : Asks v ls m)
    (second : ∀ a, Asks v more (f a)) : Asks v (ls ++ more) (m >>= f) := by
  refine ⟨?_, ?_⟩
  · intro s
    rw [after_bind, (second _).leaves, first.leaves, (v.lookUpAll_append ls more s).2]
  · intro s t same
    rw [(v.lookUpAll_append ls more s).1, (v.lookUpAll_append ls more t).1] at same
    -- There is one answer for each lookup, which tells where those of the second part begin.
    have lengths : (answer (v.lookUpAll ls) s).length = (answer (v.lookUpAll ls) t).length := by
      rw [lookUpAll_length, lookUpAll_length]
    obtain ⟨early, late⟩ := List.append_inj same lengths
    rw [answer_bind, answer_bind, first.gives s t early]
    refine (second _).gives _ _ ?_
    rwa [first.leaves, first.leaves]

-- What is traced beside the lookups is not remembered.
theorem Asks.lift {ls : List Lookup} (n : Noted α) {f : α → Resolving β}
    (second : ∀ a, Asks v ls (f a)) : Asks v ls ((liftM n : Resolving α) >>= f) :=
  ⟨(second n.value).leaves, (second n.value).gives⟩

theorem Asks.map {ls : List Lookup} {m : Resolving α} (asks : Asks v ls m) (f : α → β) :
    Asks v ls (f <$> m) :=
  ⟨asks.leaves, fun s t same => congrArg f (asks.gives s t same)⟩

theorem Asks.mapM {f : γ → Resolving α} {ls : γ → List Lookup} (each : ∀ c, Asks v (ls c) (f c))
    (cs : List γ) : Asks v (cs.flatMap ls) (cs.mapM f) := by
  induction cs with
  | nil => exact Asks.pure []
  | cons c rest ih =>
    rw [List.mapM_cons, List.flatMap_cons, ← List.append_nil (rest.flatMap ls)]
    exact (each c).bind fun _ => ih.bind fun _ => Asks.pure _

end Sdk.Vendor

namespace Analyzer

open Sdk.Vendor

def lookupOf? (c : Convention) (package : Package) (i : Invocation) : Option Lookup :=
  if startsWith i.function "Extract" then none else some ⟨c, package.importPath, i.function⟩

def lookupsOf (c : Convention) (f : Go.Function) (package : Package) : List Lookup :=
  (c.invocations f.source package).filterMap (lookupOf? c package)

def lookups (a : Analyzer) (file : Go.SourceFile) : List Lookup :=
  let c := a.conventionOf file
  file.functions.flatMap fun f => (c.packages file.imports).flatMap (lookupsOf c f)

theorem invocations_dotless (c : Convention) (source : String) (package : Package) :
    ∀ i ∈ c.invocations source package, Dotless i.function := by
  intro i member
  unfold Convention.invocations at member
  split at member
  · obtain ⟨m, found, rfl⟩ := List.mem_map.mp member
    exact .of_word (@Pattern.group_within isWord [.edge, word package.localName, word "."]
      [.many isWord] [word "(", .opens, .many isWord, .closes, .opens, .many Pattern.notNewline, .closes]
      _ (by simp [Pattern.Within]) (Pattern.mem_findAll_matched found))
  · obtain ⟨m, found, rfl⟩ := List.mem_map.mp member
    exact .of_word (@Pattern.group_within isWord
      [word "= ", .opens, .many Pattern.notNewline, .one (fun c => c == 'c' || c == 'C'),
        word "lient", .closes, word "."]
      [.many isWord]
      [word "(", .opens, .many Pattern.notNewline, .one (fun c => c == ')' || c == '\x7b'), .closes]
      _ (by simp [Pattern.Within]) (Pattern.mem_findAll_matched found))

theorem lookups_dotless (a : Analyzer) (file : Go.SourceFile) :
    ∀ l ∈ a.lookups file, Dotless l.function := by
  intro l member
  obtain ⟨f, _, member⟩ := List.mem_flatMap.mp member
  obtain ⟨package, _, member⟩ := List.mem_flatMap.mp member
  obtain ⟨i, invoked, found⟩ := List.mem_filterMap.mp member
  unfold lookupOf? at found
  split at found
  · cases found
  · cases found
    exact invocations_dotless _ _ _ i invoked

theorem callOf?_asks (a : Analyzer) (c : Convention) (file : Go.SourceFile) (f : Go.Function)
    (package : Package) (i : Invocation) :
    Asks a.vendor (lookupOf? c package i).toList (a.callOf? c file f package i) := by
  unfold callOf? lookupOf?
  split
  · exact Asks.pure none
  · rw [Option.toList_some, ← List.append_nil [_]]
    refine (Asks.lookUp a.vendor ⟨c, package.importPath, i.function⟩).bind fun found => ?_
    cases found with
    | none => exact Asks.pure none
    | some e =>
      dsimp only
      split
      · exact Asks.pure none
      · refine Asks.lift _ fun s => ?_
        split <;> exact Asks.pure _

-- A call is made of the endpoint that its lookup gives; calls into the tags package are filled in.
theorem callOf?_made {a : Analyzer} {c : Convention} {file : Go.SourceFile} {f : Go.Function}
    {package : Package} {i : Invocation} {s : State} {call : Call}
    (made : answer (a.callOf? c file f package i) s = some call) :
    ∃ e service, answer (a.vendor.lookUp ⟨c, package.importPath, i.function⟩) s = some e ∧
      (call = Call.ofEndpoint e i.function service package.importPath ∨
        c.kind = .rest ∧
          call = Tag.fillType i.trailing (Call.ofEndpoint e i.function service package.importPath)) := by
  unfold callOf? at made
  split at made
  · cases made
  · rw [answer_bind] at made
    cases found : answer (a.vendor.endpoint? c package.importPath i.function) s with
    | none =>
      rw [found] at made
      cases made
    | some e =>
      rw [found] at made
      dsimp only at made
      split at made
      · cases made
      · rw [answer_bind] at made
        refine ⟨e, (a.service c file i.receiver f).value, found, ?_⟩
        split at made
        · rename_i tags
          cases made
          rw [Bool.and_eq_true, decide_eq_true_eq] at tags
          exact .inr ⟨tags.1, rfl⟩
        · cases made
          exact .inl rfl

theorem helperCall_asks (a : Analyzer) (c : Convention) (file : Go.SourceFile) (f : Go.Function) :
    Asks a.vendor [] (a.helperCall c file f) := by
  unfold helperCall
  split
  · split
    · exact Asks.pure []
    · exact Asks.lift _ fun _ => Asks.pure _
  · exact Asks.pure []

-- The tag helper asks for nothing.
def lookupsAt (c : Convention) : Site → List Lookup
  | .invocation _ package i => (lookupOf? c package i).toList
  | .function _ => []

theorem callsAt_asks (a : Analyzer) (c : Convention) (file : Go.SourceFile) (site : Site) :
    Asks a.vendor (lookupsAt c site) (a.callsAt c file site) := by
  cases site with
  | invocation f package i => exact (a.callOf?_asks c file f package i).map Option.toList
  | function f => exact a.helperCall_asks c file f

theorem lookups_sites (a : Analyzer) (file : Go.SourceFile) :
    a.lookups file = (a.sites file).flatMap (lookupsAt (a.conventionOf file)) := by
  rw [flatMap_sites]
  refine List.flatMap_congr fun f _ => ?_
  rw [lookupsAt, List.append_nil]
  exact List.flatMap_congr fun package _ => List.filterMap_eq_flatMap_toList _ _

theorem analyze_asks (a : Analyzer) (file : Go.SourceFile) :
    Asks a.vendor (a.lookups file) (a.analyze file) := by
  rw [analyze_sites, lookups_sites]
  exact (Asks.mapM (a.callsAt_asks _ file) _).map List.flatten

theorem run_leaves (a : Analyzer) (files : List Go.SourceFile) (s : State) :
    after (files.mapM a.analyze) s = after (a.vendor.lookUpAll (files.flatMap a.lookups)) s :=
  (Asks.mapM a.analyze_asks files).leaves s

-- The answers to a file's lookups are the direct ones both in the run and alone.
theorem analyze_alone {a : Analyzer} {past : List Lookup} {s : State} {file : Go.SourceFile}
    (valid : Faithful a.vendor past s) (consistent : Consistent a.vendor (past ++ a.lookups file)) :
    answer (a.analyze file) s = answer (a.analyze file) {} := by
  have names := a.lookups_dotless file
  have alone : Consistent a.vendor ([] ++ a.lookups file) :=
    consistent.of_subset (List.subset_append_right past _)
  refine (a.analyze_asks file).gives s {} ?_
  rw [(lookUpAll_direct valid consistent names).1,
    (lookUpAll_direct (faithful_start a.vendor) alone names).1]

theorem run_alone {a : Analyzer} {past : List Lookup} {s : State} {files : List Go.SourceFile}
    (valid : Faithful a.vendor past s)
    (consistent : Consistent a.vendor (past ++ files.flatMap a.lookups)) :
    answer (files.mapM a.analyze) s = files.map fun file => answer (a.analyze file) {} := by
  induction files generalizing past s with
  | nil => rfl
  | cons file rest ih =>
    rw [List.flatMap_cons, ← List.append_assoc] at consistent
    have first : Consistent a.vendor (past ++ a.lookups file) :=
      consistent.of_subset (List.subset_append_left _ _)
    have next : Faithful a.vendor (past ++ a.lookups file) (after (a.analyze file) s) := by
      rw [(a.analyze_asks file).leaves]
      exact (lookUpAll_direct valid first (a.lookups_dotless file)).2
    rw [answer_mapM_cons, List.map_cons, ih next consistent, analyze_alone valid first]

-- Each file gives what it gives alone, the run is the lookups of its files one after another, and
-- the answer to each of them is the direct one.
theorem memory_unseen (a : Analyzer) (files : List Go.SourceFile)
    (consistent : Consistent a.vendor (files.flatMap a.lookups)) :
    answer (files.mapM a.analyze) {} = files.map (fun file => answer (a.analyze file) {}) ∧
      after (files.mapM a.analyze) {} = after (a.vendor.lookUpAll (files.flatMap a.lookups)) {} ∧
      answer (a.vendor.lookUpAll (files.flatMap a.lookups)) {} =
        (files.flatMap a.lookups).map a.vendor.direct? := by
  have names : ∀ l ∈ files.flatMap a.lookups, Dotless l.function := by
    intro l member
    obtain ⟨file, _, member⟩ := List.mem_flatMap.mp member
    exact a.lookups_dotless file l member
  refine ⟨?_, a.run_leaves files {}, ?_⟩
  · exact run_alone (faithful_start a.vendor) consistent
  · exact (lookUpAll_direct (faithful_start a.vendor) consistent names).1

def addresses : Vendor where
  root := ⟨"v"⟩
  tree := .ofFiles
    [(⟨"v/sdk/ip/requests.go"⟩, .text "func Get()\x7bc.Get(u())\x7d"),
     (⟨"v/sdk/ip/urls.go"⟩, .text "func u()\x7bx.ServiceURL(\"ip\")\x7d")]

def sample : Analyzer := ⟨addresses, {}, {}, .of .rest (some "sdk/"), .of .generated none⟩

def user (name : String) : Go.SourceFile where
  path := ⟨name⟩
  source := ""
  package := none
  imports := [⟨none, "sdk/ip"⟩]
  functions := [⟨"read", "ip.Get(client)", "()", 0, 0, 1, false⟩]
  literals := []

def users : List Go.SourceFile := [user "a.go", user "b.go"]

def asked : Lookup := ⟨sample.rest, "sdk/ip", "Get"⟩

theorem users_lookups : users.flatMap sample.lookups = [asked, asked] := by decide +kernel

theorem users_consistent : Consistent sample.vendor (users.flatMap sample.lookups) := by
  rw [users_lookups]
  intro l member l' member' _
  have first : l = asked := by simpa using member
  have second : l' = asked := by simpa using member'
  rw [first, second]
  exact ⟨rfl, rfl⟩

theorem memory_unseen_users :
    users.flatMap sample.lookups = [asked, asked] ∧ sample.vendor.direct? asked = some ⟨"ip", .get⟩ ∧
      answer (users.mapM sample.analyze) {} = users.map fun file => answer (sample.analyze file) {} :=
  ⟨users_lookups, by decide +kernel, (memory_unseen sample users users_consistent).1⟩

theorem no_file_read_twice (a : Analyzer) (lists : a.vendor.tree.ListsNames) :
    (∀ ls, ((after (a.vendor.lookUpAll ls) {}).reads.map Path.components).Nodup) ∧
      ∀ files : List Go.SourceFile,
        ((after (files.mapM a.analyze) {}).reads.map Path.components).Nodup := by
  refine ⟨?_, ?_⟩
  · intro ls
    exact (lookUpAll_readOnce lists ls readOnce_start).once
  · intro files
    rw [a.run_leaves]
    exact (lookUpAll_readOnce lists _ readOnce_start).once

theorem no_file_read_twice_users :
    (after (users.mapM sample.analyze) {}).reads.length = 2 ∧
      ((after (users.mapM sample.analyze) {}).reads.map Path.components).Nodup :=
  ⟨by decide +kernel, (no_file_read_twice sample (ofFiles_listsNames _)).2 users⟩

end Analyzer

end CallAtlas
