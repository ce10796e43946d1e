import CallAtlas.Proofs.Analysis.Sources
import CallAtlas.Proofs.Run.Documents

namespace CallAtlas

open CallAtlas.Text

namespace Run.Scan

open Publishing Sdk.Resolving

variable {c : Config} {s : Settings} {d d' opened : Disk} {p : Plan} {summary : Summary} {out q : Place}

def isOutputName (n : String) : Bool := n == skipListName || endsWith n ".yaml" || endsWith n ".json"

-- Files of the names that a scan writes, directly at a place.
def ownAt (out q : Place) : Bool := q.dropLast == out && q.getLast?.any isOutputName

theorem ownAt_exact {n : String} (last : q.getLast? = some n) :
    ownAt out q = true ↔ q.dropLast = out ∧ isOutputName n = true := by
  rw [ownAt, last, Bool.and_eq_true, beq_iff_eq, Option.any_some]

theorem ownAt_named {n : String} (mine : ownAt out q = true) (last : q.getLast? = some n) :
    isOutputName n = true :=
  ((ownAt_exact last).mp mine).2

-- A name has one last letter.
theorem isOutputName_go {n : String} (output : isOutputName n = true) : endsWith n ".go" = false := by
  have last : ∀ {tail : String}, endsWith n tail = true → tail.toList ≠ [] →
      n.toList.getLast? = tail.toList.getLast? := by
    intro tail ends filled
    obtain ⟨lead, whole⟩ := List.isSuffixOf_iff_suffix.mp ends
    rw [← whole, List.getLast?_append_of_ne_nil lead filled]
  rw [Bool.eq_false_iff]
  intro go
  have letter := last go (by decide)
  simp only [isOutputName, Bool.or_eq_true, beq_iff_eq] at output
  rcases output with (rfl | yaml) | json
  · exact absurd letter (by decide)
  · exact absurd (letter.symm.trans (last yaml (by decide))) (by decide)
  · exact absurd (letter.symm.trans (last json (by decide))) (by decide)

-- Companions of the files that a scan meets.
def companionPaths (d : Disk) (c : Config) : List Path :=
  match d.canonical? c.settings.sourceRoot with
  | none => []
  | some root => (Discovery.candidates d root c.settings.filter).flatMap fun f =>
      (companionsOf c.settings (f.path.fileName?.getD "")).map f.path.withFileName

-- The files that a scan looks for by their paths.
def inputPaths (d : Disk) (c : Config) : List Path :=
  [c.settings.configPath, c.settings.hcConfigPath, c.settings.catalogPath] ++
    (c.settings.schema.map c.settings.underBase).toList ++ companionPaths d c

theorem readInputs_kept (kept : ∀ path ∈ inputPaths d c, d'.read? path = d.read? path) :
    readInputs d' c.settings = readInputs d c.settings := by
  have index : readIndex d' c.settings = readIndex d c.settings := by
    unfold readIndex
    rw [kept _ (by simp [inputPaths]), kept c.settings.hcConfigPath (by simp [inputPaths])]
  have schema : readSchema d' c.settings = readSchema d c.settings := by
    unfold readSchema
    cases named : c.settings.schema with
    | none => rfl
    | some path => simp only [Option.map_some, kept (c.settings.underBase path) (by simp [inputPaths, named])]
  unfold readInputs
  rw [index, schema, kept c.settings.catalogPath (by simp [inputPaths])]

theorem readResource_kept {path : Path} (same : d'.read? path = d.read? path)
    (companions : ∀ name ∈ companionsOf s (path.fileName?.getD ""),
      d'.read? (path.withFileName name) = d.read? (path.withFileName name)) :
    readResource d' s path = readResource d s path := by
  have merged : ∀ source, (companionsOf s (path.fileName?.getD "")).foldl (addCompanion d' path) source =
      (companionsOf s (path.fileName?.getD "")).foldl (addCompanion d path) source := by
    intro source
    refine List.foldl_ext _ _ source ?_
    intro source name member
    unfold addCompanion
    rw [companions name member]
  unfold readResource
  rw [same]
  cases d.read? path with
  | none => rfl
  | some body =>
    dsimp only
    cases named : companionsOf s (path.fileName?.getD "") with
    | nil => rfl
    | cons name rest =>
      rw [named] at merged
      simp only [merged]

theorem readResources_kept {paths : List Path}
    (kept : ∀ path ∈ paths, readResource d' s path = readResource d s path) :
    readResources d' s paths = readResources d s paths := by
  induction paths with
  | nil => rfl
  | cons path rest ih =>
    obtain ⟨first, others⟩ := List.forall_mem_cons.mp kept
    simp only [readResources, first, ih others]

theorem discover_candidates {schema : Schema} {found : Discovery}
    (searched : discover d c schema = .ok found) : ∃ root, d.canonical? c.settings.sourceRoot = some root ∧
      ∀ path ∈ found.resources, ∃ f ∈ Discovery.candidates d root c.settings.filter, f.path = path := by
  obtain ⟨root, canonical, searched, _⟩ := discover_exact.mp searched
  refine ⟨root, canonical, ?_⟩
  intro path member
  exact List.mem_map.mp ((Discovery.find_accounts searched).subset (List.mem_append_left _ member))

-- The files that are read have other names than those that are written.
theorem unnamed_resource {own : Place → Bool}
    (named : ∀ place n, own place = true → place.getLast? = some n → isOutputName n = true) :
    ∀ place n, own place = true → place.getLast? = some n → isResourceFile n = false := by
  intro place n mine last
  simp [isResourceFile, isOutputName_go (named place n mine last)]

example : isResourceFile skipListName = false ∧ isResourceFile "resource_x.json" = false := by
  decide +kernel

section
variable {own : Place → Bool} (grown : Disk.Grown own d d') (unruled : Disk.Unruled own d d')
  (tree : d.Tree) (tree' : d'.Tree)
  (named : ∀ place n, own place = true → place.getLast? = some n → isOutputName n = true)
include grown tree named

theorem read?_resource {root : Path} {f : Candidate} {filter : Option String}
    (canonical : d.canonical? c.settings.sourceRoot = some root)
    (member : f ∈ Discovery.candidates d root filter) : d'.read? f.path = d.read? f.path := by
  obtain ⟨place, rfl, _, plain⟩ := tree.toProper.canonical?_exact canonical
  obtain ⟨⟨path, at_⟩, met, made⟩ := List.mem_filterMap.mp member
  obtain ⟨name, given, made⟩ := Option.bind_eq_some_iff.mp made
  obtain ⟨body, present, made⟩ := Option.bind_eq_some_iff.mp made
  dsimp only at given present made
  split at made
  · rename_i chosen
    cases made
    have last : at_.getLast? = some name := Disk.walk_named tree.toProper met given
    obtain ⟨below, further, rfl, rfl⟩ := tree.toProper.walk_below plain met
    have located : d.locate? (Disk.pathOf (place ++ below)) = some (place ++ below) :=
      tree.located (Disk.bodyAt?_eq_some.mp present)
    refine grown.read?_eq ?_ ?_
    · intro other there
      cases (grown.locate? located).symm.trans there
      rw [Bool.eq_false_iff]
      intro mine
      have resource := (Bool.and_eq_true_iff.mp chosen).1
      rw [unnamed_resource named _ name mine last] at resource
      cases resource
    · intro _
      rw [tree.read?_pathOf present]
      rfl
  · cases made

include unruled tree'

theorem discover_kept {schema : Schema} {found : Discovery} (searched : discover d c schema = .ok found) :
    discover d' c schema = .ok found := by
  obtain ⟨root, canonical, searched, filled⟩ := discover_exact.mp searched
  refine discover_exact.mpr ⟨root, grown.canonical? canonical, ?_, filled⟩
  have candidates := fun filter => Discovery.candidates_kept grown unruled tree.toProper tree'.toProper
    (tree.canonical?_there canonical) (unnamed_resource named) filter
  unfold Discovery.find at searched ⊢
  rw [candidates]
  exact searched

theorem plan_kept (planned : (plan d c).run.value = .ok p)
    (kept : ∀ path ∈ inputPaths d c, d'.read? path = d.read? path) :
    (plan d' c).run.value =
      .ok { p with analyzer := p.analyzer.withTree (.ofDisk (Scan.opened d' c.settings)) } := by
  obtain ⟨inputs, found, read, searched, rfl⟩ := plan_exact.mp planned
  obtain ⟨root, canonical, candidates⟩ := discover_candidates searched
  have resources : readResources d' c.settings found.resources =
      readResources d c.settings found.resources := by
    refine readResources_kept ?_
    intro path member
    obtain ⟨f, candidate, rfl⟩ := candidates path member
    refine readResource_kept (read?_resource grown tree named canonical candidate) ?_
    intro name companion
    refine kept _ (List.mem_append_right _ ?_)
    rw [companionPaths, canonical]
    exact List.mem_flatMap.mpr ⟨f, candidate, List.mem_map_of_mem companion⟩
  refine plan_exact.mpr ⟨inputs, found, ?_, discover_kept grown unruled tree tree' named searched, ?_⟩
  · rw [readInputs_kept kept, read]
  · rw [resources]
    rfl

end

theorem plan_tree (planned : (plan d c).run.value = .ok p) :
    p.analyzer.vendor.tree = .ofDisk (Scan.opened d c.settings) := by
  obtain ⟨inputs, found, _, _, rfl⟩ := plan_exact.mp planned
  rfl

theorem writePages_state {a : Analyzer} {done w : Written} {files : List Go.SourceFile}
    (ran : outcome (files.foldlM (writePage a s) done) d = (.ok w, d')) :
    w.state = after (files.mapM (page a s)) done.state := by
  induction files generalizing done d with
  | nil =>
    cases ran
    rfl
  | cons file rest ih =>
    rw [List.foldlM_cons] at ran
    obtain ⟨next, middle, first, further⟩ := outcome_bind ran
    obtain ⟨_, _, state, _⟩ := writePage_exact first
    rw [ih further, state, after_mapM_cons]

-- What is made of the files does not depend on the disk that it is written to.
theorem writePages_again {a : Analyzer} {done w : Written} {files : List Go.SourceFile} {e e' : Disk}
    (ran : outcome (files.foldlM (writePage a s) done) d = (.ok w, d'))
    (wrote : e.writeAll ((pagesFrom a s done.state files).map (Page.written s)) = some e') :
    outcome (files.foldlM (writePage a s) done) e = (.ok w, e') := by
  obtain ⟨w', again⟩ := writePages_runs wrote
  obtain ⟨pages, skipped, _⟩ := writePages_exact ran
  obtain ⟨pages', skipped', _⟩ := writePages_exact again
  have same : w' = w := by
    cases w
    cases w'
    simp only [Written.mk.injEq]
    exact ⟨pages'.trans pages.symm, skipped'.trans skipped.symm,
      (writePages_state again).trans (writePages_state ran).symm⟩
  rw [← same]
  exact again

theorem publish_iff : outcome (publish s p) d = (.ok summary, d') ↔
    ∃ w opened closed, d.makeDirectories s.outputRoot = .ok opened ∧
      outcome (p.files.foldlM (writePage p.analyzer s) {}) opened = (.ok w, closed) ∧
      closed.write (s.outputRoot.join skipListName) (skipList (SkippedFile.sort (p.skipped ++ w.skipped))) =
        some d' ∧
      summary = summaryOf w (SkippedFile.sort (p.skipped ++ w.skipped)) := by
  unfold publish
  constructor
  · intro ran
    obtain ⟨_, opened, made, ran⟩ := outcome_bind ran
    obtain ⟨w, closed, wrote, ran⟩ := outcome_bind ran
    obtain ⟨_, last, listed, ran⟩ := outcome_bind ran
    cases ran
    exact ⟨w, opened, closed, outcome_makeDirectories.mp made, wrote, outcome_write.mp listed, rfl⟩
  · rintro ⟨w, opened, closed, made, wrote, listed, rfl⟩
    rw [outcome_bind_ok (outcome_makeDirectories.mpr made), outcome_bind_ok wrote]
    exact outcome_bind_ok (outcome_write.mpr listed)

-- The files that publishing a plan writes.
def filesOf (s : Settings) (p : Plan) (skipped : List SkippedFile) : List (Path × String) :=
  (pagesOf s p).map (Page.written s) ++ [(s.outputRoot.join skipListName, skipList skipped)]

theorem filesOf_writes {skipped : List SkippedFile} :
    opened.writeAll (filesOf s p skipped) = some d' ↔
      ∃ closed, opened.writeAll ((pagesOf s p).map (Page.written s)) = some closed ∧
        closed.write (s.outputRoot.join skipListName) (skipList skipped) = some d' := by
  rw [filesOf, Disk.writeAll_append, Option.bind_eq_some_iff]
  simp [Disk.writeAll]

theorem publish_files (ran : outcome (publish s p) d = (.ok summary, d')) :
    ∃ opened, d.makeDirectories s.outputRoot = .ok opened ∧
      opened.writeAll (filesOf s p summary.skipped) = some d' := by
  obtain ⟨w, opened, closed, made, wrote, listed, rfl⟩ := publish_iff.mp ran
  obtain ⟨_, _, written⟩ := writePages_exact wrote
  exact ⟨opened, made, filesOf_writes.mpr ⟨closed, written, listed⟩⟩

theorem run_calls (ran : outcome (run c) d = (.ok summary, d')) :
    ∃ p, (plan d c).run.value = .ok p ∧ summary.calls = ((pagesOf c.settings p).flatMap Page.calls).length := by
  obtain ⟨p, start, read, published⟩ := outcome_bind ran
  obtain ⟨planned, rfl⟩ := outcome_reading.mp read
  obtain ⟨w, _, _, _, wrote, _, rfl⟩ := publish_iff.mp published
  refine ⟨p, planned, ?_⟩
  rw [summaryOf, (writePages_exact wrote).1]
  rfl

-- A plan that has been published is published once more without a change.
theorem publish_again (tree : d.Tree) (ran : outcome (publish s p) d = (.ok summary, d')) :
    outcome (publish s p) d' = (.ok summary, d') := by
  obtain ⟨opened, made, wrote⟩ := publish_files ran
  obtain ⟨w, opened', closed, made', pages, _, rfl⟩ := publish_iff.mp ran
  cases made.symm.trans made'
  obtain ⟨_, grown⟩ := @Disk.Tree.writeAll opened d' (fun _ => true) (tree.makeDirectories made) _ wrote
    fun _ _ _ _ => rfl
  obtain ⟨closed', again, listed⟩ :=
    filesOf_writes.mp ((tree.makeDirectories made).writeAll_again wrote)
  exact publish_iff.mpr ⟨w, d', closed', Disk.makeDirectories_again made grown, writePages_again pages again,
    listed, rfl⟩

theorem publish_congr {sources : Sdk.SourceTree}
    (same : ∀ dir, Sdk.SourceTree.SameSources dir p.analyzer.vendor.tree sources)
    (lists : p.analyzer.vendor.tree.ListsNames) :
    publish s { p with analyzer := p.analyzer.withTree sources } = publish s p := by
  have pages : page (p.analyzer.withTree sources) s = page p.analyzer s := by
    funext file
    unfold page
    rw [Analyzer.resourceCalls_congr same lists]
    rfl
  have writes : writePage (p.analyzer.withTree sources) s = writePage p.analyzer s := by
    funext done file
    unfold writePage
    rw [pages]
  unfold publish
  dsimp only
  rw [writes]

theorem isOutputName_format (lead : String) (format : DocumentFormat) :
    isOutputName (lead ++ "." ++ format.text) = true := by
  have ending : endsWith (lead ++ "." ++ format.text) ("." ++ format.text) = true := by
    refine List.isSuffixOf_iff_suffix.mpr ?_
    rw [String.append_assoc, @String.toList_append lead]
    exact List.suffix_append _ _
  have known : "." ++ format.text = ".yaml" ∨ "." ++ format.text = ".json" := by
    cases format <;> decide
  rcases known with yaml | json
  · rw [yaml] at ending
    rw [isOutputName, ending, Bool.or_true, Bool.true_or]
  · rw [json] at ending
    rw [isOutputName, ending, Bool.or_true]

theorem filesOf_named (slashless : '/' ∉ s.provider.toList) {skipped : List SkippedFile}
    {file : Path × String} (member : file ∈ filesOf s p skipped) :
    ∃ n, Path.IsName n ∧ isOutputName n = true ∧ file.1 = s.outputRoot.join n := by
  rcases List.mem_append.mp member with page | list
  · obtain ⟨q, made, rfl⟩ := List.mem_map.mp page
    obtain ⟨file, _, path, target, _⟩ := mem_pagesFrom made
    refine ⟨(publishedAs s q.file).text, publishedAs_isName slashless q.file, isOutputName_format _ _, ?_⟩
    dsimp only [Page.written, publishedAs]
    rw [target, path, Settings.documentPath]
  · cases List.mem_singleton.mp list
    exact ⟨skipListName, skipListName_isName, by decide, rfl⟩

theorem filesOf_own (slashless : '/' ∉ s.provider.toList) {skipped : List SkippedFile}
    (there : opened.placeOf? s.outputRoot = some out) :
    ∀ file ∈ filesOf s p skipped, ∀ place, opened.locate? file.1 = some place → ownAt out place = true := by
  intro file member place located
  obtain ⟨n, plain, output, path⟩ := filesOf_named slashless member
  rw [path, Disk.locate?_join _ plain, there, Option.bind_some] at located
  split at located
  · cases located
    exact (ownAt_exact List.getLast?_concat).mpr ⟨List.dropLast_concat, output⟩
  · cases located

theorem opened_eq (made : d.makeDirectories s.outputRoot = .ok opened) : Scan.opened d s = opened := by
  rw [Scan.opened, made]

-- No rules are written under the names of outputs, and nothing that makes a repository.
theorem hidden_own {own : Place → Bool}
    (named : ∀ place n, own place = true → place.getLast? = some n → isOutputName n = true)
    {at_ : Place} {n : String} (other : isOutputName n = false) : own (at_ ++ [n]) = false := by
  rw [Bool.eq_false_iff]
  intro mine
  rw [named _ n mine List.getLast?_concat] at other
  cases other

theorem rules_named {own : Place → Bool}
    (named : ∀ place n, own place = true → place.getLast? = some n → isOutputName n = true) (dir : Place) :
    ∀ file ∈ Disk.ruleFiles, own (dir ++ file) = false := by
  intro file member
  simp only [Disk.ruleFiles, List.mem_cons, List.not_mem_nil, or_false] at member
  rcases member with rfl | rfl | rfl
  · exact hidden_own named (by decide)
  · exact hidden_own named (by decide)
  · rw [show dir ++ [".git", "info", "exclude"] = dir ++ [".git", "info"] ++ ["exclude"] by simp]
    exact hidden_own named (by decide)

theorem unruled_named {own : Place → Bool} (same : Disk.SameTree d d') (grown : Disk.Grown own d d')
    (named : ∀ place n, own place = true → place.getLast? = some n → isOutputName n = true) :
    Disk.Unruled own d d' := by
  refine ⟨rules_named named, ?_⟩
  intro dir
  have repository : d'.entry? (dir ++ [".git"]) = d.entry? (dir ++ [".git"]) :=
    Disk.entry?_eq (same.dirs _) (grown.bodies _ (hidden_own named (by decide)))
  rw [Disk.hasRepository, Disk.existsAt, repository]
  rfl

-- What a scan that succeeds leaves: the directory of its files, and in it these as all that has changed
-- since it was made.
structure Leaves (s : Settings) (d d' : Disk) (out : Place) : Prop where
  place : (Scan.opened d s).placeOf? s.outputRoot = some out
  ready : (Scan.opened d s).Tree
  tree : d'.Tree
  same : Disk.SameTree (Scan.opened d s) d'
  grown : Disk.Grown (ownAt out) (Scan.opened d s) d'
  unruled : Disk.Unruled (ownAt out) (Scan.opened d s) d'

theorem publish_leaves (tree : d.Tree) (slashless : '/' ∉ s.provider.toList)
    (ran : outcome (publish s p) d = (.ok summary, d')) : ∃ out, Leaves s d d' out := by
  obtain ⟨opened, made, wrote⟩ := publish_files ran
  have ready : opened.Tree := tree.makeDirectories made
  have same := Disk.writeAll_tree wrote
  have last : (s.outputRoot.join skipListName, skipList summary.skipped) ∈ filesOf s p summary.skipped :=
    List.mem_append_right _ (List.mem_singleton.mpr rfl)
  obtain ⟨_, place, located⟩ := Disk.writeAll_located wrote _ last
  rw [same.locate?, Disk.locate?_join _ skipListName_isName] at located
  obtain ⟨out, there, _⟩ := Option.bind_eq_some_iff.mp located
  obtain ⟨tree', grown⟩ := ready.writeAll wrote (filesOf_own slashless there)
  rw [← opened_eq made] at ready same there grown
  exact ⟨out, there, ready, tree', same, grown, unruled_named same grown fun _ _ => ownAt_named⟩

theorem run_leaves (tree : d.Tree) (slashless : '/' ∉ c.settings.provider.toList)
    (ran : outcome (run c) d = (.ok summary, d')) : ∃ out, Leaves c.settings d d' out := by
  obtain ⟨p, start, read, published⟩ := outcome_bind ran
  obtain ⟨_, rfl⟩ := outcome_reading.mp read
  exact publish_leaves tree slashless published

-- No input lies in the directory of the documents.
def InputsApart (d : Disk) (c : Config) : Prop :=
  ∀ path ∈ inputPaths d c, ∀ place ∈ (Scan.opened d c.settings).locate? path,
    (Scan.opened d c.settings).placeOf? c.settings.outputRoot ≠ some place.dropLast

instance (d : Disk) (c : Config) : Decidable (InputsApart d c) :=
  inferInstanceAs (Decidable (∀ path ∈ inputPaths d c, ∀ place ∈ (Scan.opened d c.settings).locate? path,
    (Scan.opened d c.settings).placeOf? c.settings.outputRoot ≠ some place.dropLast))

theorem Leaves.input_kept (leaves : Leaves c.settings d d' out)
    (made : Disk.Grown (ownAt out) d (Scan.opened d c.settings)) (apart : InputsApart d c) {path : Path}
    (input : path ∈ inputPaths d c)
    (reachable : (Scan.opened d c.settings).isFile path = true → d.isFile path = true) :
    d'.read? path = d.read? path := by
  have other : ∀ place, (Scan.opened d c.settings).locate? path = some place → ownAt out place = false := by
    intro place located
    rw [Bool.eq_false_iff]
    intro mine
    simp only [ownAt, Bool.and_eq_true, beq_iff_eq] at mine
    exact apart path input place located (mine.1 ▸ leaves.place)
  rw [leaves.grown.read?_same leaves.same other]
  exact made.read?_eq other reachable

-- The packages are the same in the files that are left.
theorem Leaves.publish_eq (leaves : Leaves s d d' out)
    (tree : p.analyzer.vendor.tree = .ofDisk (Scan.opened d s)) :
    publish s { p with analyzer := p.analyzer.withTree (.ofDisk d') } = publish s p := by
  refine publish_congr ?_ ?_
  · rw [tree]
    exact leaves.grown.sources leaves.same fun _ _ mine last => isOutputName_go (ownAt_named mine last)
  · rw [tree]
    exact Sdk.SourceTree.ofDisk_listsNames leaves.ready.toProper

def lone (source : String) (more : List (Place × Entry)) : Disk where
  entries :=
    [(["s"], .dir), (["c.go"], .file (.text "")), (["e.json"], .file (.text "\x7b\x7d")),
     (["s", "resource_x.go"], .file (.text source))] ++ more

def loneConfig (outputDir : Path) (companions : SortedMap String String) : Config where
  settings := { twinConfig.settings with outputDir, companions }

def lonePlan (file : Go.SourceFile) (d : Disk) (c : Config) : Plan where
  files := [file]
  skipped := []
  analyzer := analyzerOf d c.settings twinInputs

theorem lone_planned (inputs : (readInputs d c.settings).run.value = .ok twinInputs)
    (globs : c.settings.exclude ++ c.ignorePatterns = [])
    (canonical : d.canonical? c.settings.sourceRoot = some ⟨"/s"⟩)
    (judged : (Discovery.candidates d ⟨"/s"⟩ c.settings.filter).map
      (Discovery.judge (selectionOf c twinInputs.schema) []) = [.ok ⟨"/s/resource_x.go"⟩])
    {file : Go.SourceFile} (read : readResource d c.settings ⟨"/s/resource_x.go"⟩ = .ok file) :
    (plan d c).run.value = .ok (lonePlan file d c) := by
  have found := @discover_judged d c twinInputs.schema ⟨"/s"⟩ [] [⟨"/s/resource_x.go"⟩] [] canonical
    (by rw [globs]; rfl) judged (by simp [Path.sort])
  rw [Path.sort, List.mergeSort_singleton, SkippedFile.sort, List.mergeSort_nil] at found
  refine plan_exact.mpr ⟨twinInputs, _, inputs, found, ?_⟩
  simp [readResources, read, lonePlan]

-- One call is annotated, and one is made through a package.
def portSource : String :=
  "package s\nimport \"sdk/p\"\n// API: VPC GET /v1/ports\nfunc f()\x7bp.List(c)\x7d\n"

def ported : Disk :=
  lone portSource
    [(["vendor"], .dir), (["vendor", "sdk"], .dir), (["vendor", "sdk", "p"], .dir),
     (["vendor", "sdk", "p", "requests.go"], .file (.text "func List()\x7bc.Get(u())\x7d")),
     (["vendor", "sdk", "p", "urls.go"], .file (.text "func u()\x7bx.ServiceURL(\"ports\")\x7d"))]

def portConfig : Config where
  settings := { twinConfig.settings with outputDir := ⟨"s/api"⟩, restPackages := "sdk/" }

def portFile : Go.SourceFile where
  path := ⟨"/s/resource_x.go"⟩
  source := portSource
  package := some "s"
  imports := [⟨none, "sdk/p"⟩]
  functions := [⟨"f", "func f()\x7bp.List(c)\x7d", "()", 51, 70, 4, false⟩]
  literals := []

theorem port_planned : (plan ported portConfig).run.value = .ok (lonePlan portFile ported portConfig) :=
  lone_planned rfl rfl (by decide +kernel) (by decide +kernel) (ok_of_toOption (by decide +kernel))

theorem port_writes :
    let pages := pagesOf portConfig.settings (lonePlan portFile ported portConfig)
    ((ported.makeDirectories portConfig.settings.outputRoot).toOption.bind fun opened =>
      (opened.writeAll (pages.map (Page.written portConfig.settings))).bind
        fun closed => closed.write (portConfig.settings.outputRoot.join skipListName) "").isSome = true ∧
      (pages.flatMap Page.calls).length = 2 := by decide +kernel

-- An ignore file that counts as soon as its directory is a repository.
def ignoring : Disk := lone "" [(["s", ".gitignore"], .file (.text "resource_x.go\n"))]

def ignoringConfig : Config := loneConfig ⟨"s/.git"⟩ {}

-- A companion that is reached through the directory of the documents.
def crossing : Disk := lone "" [(["s", "y.go"], .file (.text "func"))]

def crossingConfig : Config := loneConfig ⟨"s/out"⟩ (.ofList [("out/../y.go", "resource_x.go")])

theorem ignoring_tree : ignoring.Tree := ⟨⟨by decide, by decide, by decide⟩, by decide, by decide⟩

theorem crossing_tree : crossing.Tree := ⟨⟨by decide, by decide, by decide⟩, by decide, by decide⟩

-- What the next scan looks at are candidates of the files before the documents were written.
theorem Leaves.plan_files {root : Path} (leaves : Leaves c.settings d d' out)
    (canonical : (Scan.opened d c.settings).canonical? c.settings.sourceRoot = some root)
    (planned : (plan d' c).run.value = .ok p) :
    ∃ resources, resources ≠ [] ∧ p.files = (readResources d' c.settings resources).value.1 ∧
      ∀ path ∈ resources,
        path ∈ (Discovery.candidates (Scan.opened d c.settings) root c.settings.filter).map Candidate.path := by
  obtain ⟨inputs, found, _, searched, rfl⟩ := plan_exact.mp planned
  obtain ⟨_, _, _, filled⟩ := discover_exact.mp searched
  obtain ⟨root', canonical', candidates⟩ := discover_candidates searched
  cases (leaves.grown.canonical? canonical).symm.trans canonical'
  have kept := Discovery.candidates_kept leaves.grown leaves.unruled leaves.ready.toProper
    leaves.tree.toProper (leaves.ready.canonical?_there canonical)
    (unnamed_resource fun _ _ => ownAt_named) c.settings.filter
  rw [kept] at candidates
  exact ⟨found.resources, filled, rfl, fun path member => List.mem_map.mpr (candidates path member)⟩

theorem Leaves.read?_named {path : Path} {at_ : Place} {n : String} (leaves : Leaves s d d' out)
    (located : (Scan.opened d s).locate? path = some (at_ ++ [n])) (other : isOutputName n = false)
    (present : (Scan.opened d s).isFile path = true) : d'.read? path = (Scan.opened d s).read? path := by
  refine leaves.grown.read?_eq ?_ fun _ => present
  intro place there
  cases (leaves.grown.locate? located).symm.trans there
  exact hidden_own (fun _ _ => ownAt_named) other

theorem ignoring_differs : ∃ summary d', outcome (run ignoringConfig) ignoring = (.ok summary, d') ∧
    outcome (run ignoringConfig) d' ≠ (.ok summary, d') := by
  have planned : (plan ignoring ignoringConfig).run.value = .ok (lonePlan (twin "/s/resource_x.go") _ _) :=
    lone_planned rfl rfl (by decide +kernel) (by decide +kernel) rfl
  obtain ⟨summary, d', ran⟩ := run_completes planned (by decide +kernel)
  refine ⟨summary, d', ran, ?_⟩
  intro again
  obtain ⟨out, leaves⟩ := run_leaves ignoring_tree (by decide) ran
  obtain ⟨_, _, _, _, planned', _⟩ := run_exact again
  obtain ⟨resources, filled, _, candidates⟩ :=
    leaves.plan_files (show _ = some ⟨"/s"⟩ by decide +kernel) planned'
  have none : (Discovery.candidates (Scan.opened ignoring ignoringConfig.settings) ⟨"/s"⟩
      ignoringConfig.settings.filter).map Candidate.path = [] := by decide +kernel
  obtain ⟨path, member⟩ := List.exists_mem_of_ne_nil resources filled
  have met := candidates path member
  rw [none] at met
  cases met

-- Once there are documents the companion's path leads to a file, and the two do not parse together.
theorem crossing_unread (leaves : Leaves crossingConfig.settings crossing d' out) :
    ∃ e, readResource d' crossingConfig.settings ⟨"/s/resource_x.go"⟩ = .error e := by
  have resource := @Leaves.read?_named crossingConfig.settings crossing d' out ⟨"/s/resource_x.go"⟩ ["s"]
    "resource_x.go" leaves (by decide +kernel) (by decide) (by decide +kernel)
  have companion := @Leaves.read?_named crossingConfig.settings crossing d' out ⟨"/s/out/../y.go"⟩ ["s"]
    "y.go" leaves (by decide +kernel) (by decide) (by decide +kernel)
  rw [readResource_kept resource]
  · have failed : (readResource (Scan.opened crossing crossingConfig.settings) crossingConfig.settings
        ⟨"/s/resource_x.go"⟩).isOk = false := by decide +kernel
    exact error_of_isOk failed
  · intro name named
    have only : companionsOf crossingConfig.settings "resource_x.go" = ["out/../y.go"] := by decide +kernel
    have base : (Path.mk "/s/resource_x.go").fileName?.getD "" = "resource_x.go" := by decide +kernel
    rw [base, only] at named
    cases List.mem_singleton.mp named
    have spelled : (Path.mk "/s/resource_x.go").withFileName "out/../y.go" = ⟨"/s/out/../y.go"⟩ := by
      decide +kernel
    rw [spelled]
    exact companion

theorem crossing_differs : ∃ summary d', outcome (run crossingConfig) crossing = (.ok summary, d') ∧
    outcome (run crossingConfig) d' ≠ (.ok summary, d') := by
  have planned : (plan crossing crossingConfig).run.value = .ok (lonePlan (twin "/s/resource_x.go") _ _) :=
    lone_planned rfl rfl (by decide +kernel) (by decide +kernel) rfl
  obtain ⟨summary, d', ran⟩ := run_completes planned (by decide +kernel)
  refine ⟨summary, d', ran, ?_⟩
  intro again
  obtain ⟨out, leaves⟩ := run_leaves crossing_tree (by decide) ran
  obtain ⟨p, _, _, _, planned', _, _, _, documents'⟩ := run_exact again
  obtain ⟨resources, _, files, candidates⟩ :=
    leaves.plan_files (show _ = some ⟨"/s"⟩ by decide +kernel) planned'
  have alone : (Discovery.candidates (Scan.opened crossing crossingConfig.settings) ⟨"/s"⟩
      crossingConfig.settings.filter).map Candidate.path = [⟨"/s/resource_x.go"⟩] := by decide +kernel
  have none : p.files = [] := by
    rw [files, readResources_eq]
    refine List.filterMap_eq_nil_iff.mpr ?_
    intro result member
    obtain ⟨path, inside, rfl⟩ := List.mem_map.mp member
    have met := candidates path inside
    rw [alone] at met
    cases List.mem_singleton.mp met
    obtain ⟨e, failed⟩ := crossing_unread leaves
    rw [readOutcome, failed]
    rfl
  obtain ⟨p', _, _, _, planned'', _, _, _, documents⟩ := run_exact ran
  cases planned.symm.trans planned''
  rw [documents', none] at documents
  have one : ((pagesFrom (lonePlan (twin "/s/resource_x.go") crossing crossingConfig).analyzer crossingConfig.settings {}
      (lonePlan (twin "/s/resource_x.go") crossing crossingConfig).files).map Page.target).length = 1 := by
    decide +kernel
  rw [← documents] at one
  cases one

-- A tree with no packages whose inputs lie apart from the documents, and a scan of it that comes out
-- differently the second time.
structure Differs (c : Config) (d : Disk) : Prop where
  tree : d.Tree
  slashless : '/' ∉ c.settings.provider.toList
  apart : InputsApart d c
  unpackaged : (Scan.opened d c.settings).contains c.settings.vendorRoot = false
  runs : ∃ summary d', outcome (run c) d = (.ok summary, d') ∧ outcome (run c) d' ≠ (.ok summary, d')

end Run.Scan

end CallAtlas
