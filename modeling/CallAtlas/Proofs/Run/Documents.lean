import CallAtlas.Proofs.Files.Places
import CallAtlas.Proofs.Run.Names

namespace CallAtlas

open CallAtlas.Text

namespace Run.Scan

open Publishing

variable {c : Config} {summary : Summary} {d d' : Disk} {p : Plan}

def pagesOf (s : Settings) (p : Plan) : List Page := pagesFrom p.analyzer s {} p.files

theorem pagesOf_led (planned : (plan d c).run.value = .ok p) {q : Page}
    (member : q ∈ pagesOf c.settings p) :
    Led (resourceOf q.file) ∧ q.target = c.settings.documentPath (resourceOf q.file) := by
  obtain ⟨file, inside, path, target, _⟩ := mem_pagesFrom member
  rw [path]
  exact ⟨plan_files planned file inside, target⟩

theorem targets_exact (planned : (plan d c).run.value = .ok p) :
    ((pagesOf c.settings p).map Page.target).Pairwise (fun a b => a.same b = false) ↔
      (pagesOf c.settings p).Pairwise fun a b =>
        (publishedAs c.settings a.file).components ≠ (publishedAs c.settings b.file).components := by
  rw [List.pairwise_map]
  refine List.Pairwise.iff_of_mem ?_
  intro a b a_in b_in
  obtain ⟨a_led, a_target⟩ := pagesOf_led planned a_in
  obtain ⟨b_led, b_target⟩ := pagesOf_led planned b_in
  rw [a_target, b_target, Path.same, documentPath_components a_led, documentPath_components b_led]
  simp

theorem skipListName_isName : Path.IsName skipListName :=
  ⟨by decide, by decide, by decide, by decide⟩

-- The list of files that were left out has a place of its own.
theorem skipList_apart {place other : Place} (s : Settings) {q : Page}
    (target : q.target = s.documentPath (resourceOf q.file))
    (page_place : d.locate? q.target = some place)
    (list_place : d.locate? (s.outputRoot.join skipListName) = some other) : place ≠ other := by
  rintro rfl
  obtain ⟨parts, last, ends⟩ := documentPath_end s (resourceOf q.file)
  have page_name := Disk.locate?_last (target ▸ ends) page_place
  have list_name := Disk.locate?_last
    (Path.components_join_name s.outputRoot skipListName_isName)
    list_place
  rw [page_name, Option.some.injEq] at list_name
  have tail : endsWith skipListName ("." ++ s.format.text) = true := by
    have whole : (last ++ ("." ++ s.format.text)).toList = last.toList ++ ("." ++ s.format.text).toList :=
      String.toList_append
    rw [← list_name, endsWith, whole]
    exact List.isSuffixOf_iff_suffix.mpr (List.suffix_append _ _)
  revert tail
  cases s.format <;> decide

theorem kept_exact {opened closed : Disk} {list : String} (planned : (plan d c).run.value = .ok p)
    (wrote : opened.writeAll ((pagesOf c.settings p).map (Page.written c.settings)) = some closed)
    (listed : closed.write (c.settings.outputRoot.join skipListName) list = some d') :
    (∀ q ∈ pagesOf c.settings p, d'.read? q.target = some (.text (q.text c.settings))) ↔
      (pagesOf c.settings p).Pairwise fun a b =>
        d'.locate? a.target = d'.locate? b.target → a.text c.settings = b.text c.settings := by
  obtain ⟨other, list_place, _, same, bodies⟩ := Disk.write_exact listed
  have unread : ∀ q ∈ pagesOf c.settings p, d'.read? q.target = closed.read? q.target := by
    intro q member
    obtain ⟨_, target⟩ := pagesOf_led planned member
    obtain ⟨plain, place, here⟩ :=
      Disk.writeAll_located wrote (q.written c.settings) (List.mem_map_of_mem member)
    have apart : place ≠ other := skipList_apart c.settings target here list_place
    have there : d'.locate? q.target = some place := (same.locate? q.target).trans here
    rw [Disk.read?_located there plain, bodies, if_neg apart]
    exact (Disk.read?_located here plain).symm
  have kept := Disk.writeAll_kept wrote
  rw [List.forall_mem_map, List.pairwise_map] at kept
  simp only [Page.written] at kept
  simp only [same.locate?, ← kept]
  constructor
  · intro all q member
    rw [← unread q member]
    exact all q member
  · intro all q member
    rw [unread q member]
    exact all q member

theorem places_apart {opened closed : Disk} (planned : (plan d c).run.value = .ok p)
    (wrote : opened.writeAll ((pagesOf c.settings p).map (Page.written c.settings)) = some closed)
    (same : Disk.SameTree closed d') (slashless : '/' ∉ c.settings.provider.toList)
    (names : (pagesOf c.settings p).Pairwise fun a b =>
      (publishedAs c.settings a.file).components ≠ (publishedAs c.settings b.file).components) :
    (pagesOf c.settings p).Pairwise fun a b =>
      d'.locate? a.target = d'.locate? b.target → a.text c.settings = b.text c.settings := by
  have named : ∀ q ∈ pagesOf c.settings p, ∃ place, d'.locate? q.target = some place ∧
      place.getLast? = some (publishedAs c.settings q.file).text := by
    intro q member
    obtain ⟨_, target⟩ := pagesOf_led planned member
    obtain ⟨_, place, here⟩ :=
      Disk.writeAll_located wrote (q.written c.settings) (List.mem_map_of_mem member)
    have there : d'.locate? q.target = some place := (same.locate? q.target).trans here
    have parts : q.target.components =
        c.settings.outputRoot.components ++ [.name (publishedAs c.settings q.file).text] := by
      rw [target]
      exact Path.components_join_name c.settings.outputRoot (publishedAs_isName slashless q.file)
    exact ⟨place, there, Disk.locate?_last parts there⟩
  refine names.imp_of_mem ?_
  intro a b a_in b_in other here
  obtain ⟨place, a_place, a_name⟩ := named a a_in
  obtain ⟨place', b_place, b_name⟩ := named b b_in
  rw [a_place, b_place, Option.some.injEq] at here
  rw [here, b_name, Option.some.injEq] at a_name
  have paths : publishedAs c.settings a.file = publishedAs c.settings b.file :=
    congrArg Path.mk a_name.symm
  exact absurd (congrArg Path.components paths) other

-- The targets are different exactly if the names are, and each page is left as it was written
-- exactly if none with another text was written to its place later. With a provider that has no
-- slash different names are enough for that.
theorem scan_documents (ran : outcome (run c) d = (.ok summary, d')) :
    ∃ p, (plan d c).run.value = .ok p ∧
      summary.documents = (pagesOf c.settings p).map Page.target ∧
      (summary.documents.Pairwise (fun a b => a.same b = false) ↔
        (pagesOf c.settings p).Pairwise fun a b =>
          (publishedAs c.settings a.file).components ≠ (publishedAs c.settings b.file).components) ∧
      ((∀ q ∈ pagesOf c.settings p, d'.read? q.target = some (.text (q.text c.settings))) ↔
        (pagesOf c.settings p).Pairwise fun a b =>
          d'.locate? a.target = d'.locate? b.target → a.text c.settings = b.text c.settings) ∧
      ('/' ∉ c.settings.provider.toList →
        summary.documents.Pairwise (fun a b => a.same b = false) →
          ∀ q ∈ pagesOf c.settings p, d'.read? q.target = some (.text (q.text c.settings))) := by
  obtain ⟨p, opened, closed, list, planned, _, wrote, listed, documents⟩ := run_exact ran
  obtain ⟨_, _, _, same, _⟩ := Disk.write_exact listed
  have targets := @targets_exact c d p planned
  have kept := kept_exact planned wrote listed
  rw [documents]
  refine ⟨p, planned, rfl, targets, kept, ?_⟩
  intro slashless distinct
  exact kept.mpr (places_apart planned wrote same slashless (targets.mp distinct))

def twins : Disk where
  entries :=
    [(["s"], .dir), (["s", "a"], .dir), (["c.go"], .file (.text "")),
     (["e.json"], .file (.text "\x7b\x7d")), (["s", "resource_x.go"], .file (.text "")),
     (["s", "a", "resource_x.go"], .file (.text ""))]

def twinConfig : Config where
  settings :=
    { basePath := ⟨"/"⟩, sourceDir := ⟨"s"⟩, configFile := ⟨"c.go"⟩, catalogFile := ⟨"e.json"⟩
      skipDirs := [], deprecated := [], codeMarkers := [], pendingUpgrade := [], companions := {} }

def twinInputs : Inputs := ⟨{}, {}, .acceptAll "huaweicloud"⟩

def twin (path : String) : Go.SourceFile := ⟨⟨path⟩, "", none, [], [], []⟩

def twinPlan : Plan where
  files := [twin "/s/a/resource_x.go", twin "/s/resource_x.go"]
  skipped := []
  analyzer := analyzerOf twins twinConfig.settings twinInputs

theorem sort_pair {p q : Path} (before : p.before q = true) : Path.sort [q, p] = [p, q] := by
  unfold Path.sort
  simp [List.mergeSort, before]

theorem twins_found :
    Discovery.find twins ⟨"/s"⟩ (selectionOf twinConfig twinInputs.schema) =
      .ok ⟨[⟨"/s/a/resource_x.go"⟩, ⟨"/s/resource_x.go"⟩], []⟩ := by
  let selection := selectionOf twinConfig twinInputs.schema
  let candidates := Discovery.candidates twins ⟨"/s"⟩ selection.filter
  have globs : Discovery.globsOf selection.exclude = .ok [] := rfl
  have resources : (candidates.filter fun f => (f.skipReason? selection []).isNone).map Candidate.path =
      [⟨"/s/resource_x.go"⟩, ⟨"/s/a/resource_x.go"⟩] := by decide +kernel
  have skipped : (candidates.filterMap fun f =>
      (f.skipReason? selection []).map (SkippedFile.mk f.path)) = [] := by decide +kernel
  have order : Path.before ⟨"/s/a/resource_x.go"⟩ ⟨"/s/resource_x.go"⟩ = true := by decide +kernel
  unfold Discovery.find
  rw [globs]
  change Except.ok (Discovery.mk (Path.sort _) (SkippedFile.sort _)) = _
  rw [resources, skipped, sort_pair order]
  simp [SkippedFile.sort]

theorem twins_planned : (plan twins twinConfig).run.value = .ok twinPlan := by
  have inputs : (readInputs twins twinConfig.settings).run.value = .ok twinInputs := by rfl
  have root : twins.canonical? twinConfig.settings.sourceRoot = some ⟨"/s"⟩ := by decide +kernel
  have discovered : discover twins twinConfig twinInputs.schema =
      .ok ⟨[⟨"/s/a/resource_x.go"⟩, ⟨"/s/resource_x.go"⟩], []⟩ := by
    unfold discover
    dsimp only
    rw [root]
    dsimp only
    rw [twins_found]
    rfl
  unfold plan
  dsimp only
  rw [Attempt.run_bind_ok inputs, discovered]
  rfl

theorem twins_targets :
    (pagesOf twinConfig.settings twinPlan).map Page.target =
      [⟨"/api/resource_x.yaml"⟩, ⟨"/api/resource_x.yaml"⟩] := by decide +kernel

theorem twins_succeed : ∃ summary d', outcome (run twinConfig) twins = (.ok summary, d') :=
  run_completes twins_planned (by decide +kernel)

theorem scan_documents_twins :
    ∃ summary d' p, outcome (run twinConfig) twins = (.ok summary, d') ∧
      (plan twins twinConfig).run.value = .ok p ∧
      summary.documents = (pagesOf twinConfig.settings p).map Page.target := by
  obtain ⟨summary, d', ran⟩ := twins_succeed
  obtain ⟨p, planned, documents, _⟩ := scan_documents ran
  exact ⟨summary, d', p, ran, planned, documents⟩

-- One target stands twice in the summary: the second file's document has replaced the first's.
theorem twins_share_target :
    ∃ summary d', outcome (run twinConfig) twins = (.ok summary, d') ∧
      ¬ summary.documents.Pairwise fun a b => a.same b = false := by
  obtain ⟨summary, d', ran⟩ := twins_succeed
  obtain ⟨p, _, _, _, planned, _, _, _, documents⟩ := run_exact ran
  refine ⟨summary, d', ran, ?_⟩
  rw [twins_planned] at planned
  obtain rfl := Except.ok.inj planned
  rw [documents]
  change ¬ ((pagesOf twinConfig.settings twinPlan).map Page.target).Pairwise _
  rw [twins_targets]
  simp [Path.same]

end Run.Scan

end CallAtlas
