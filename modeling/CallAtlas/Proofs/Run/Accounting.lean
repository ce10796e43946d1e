import CallAtlas.Proofs.Run.Documents
import CallAtlas.Proofs.Run.Workers

namespace CallAtlas.Run.Scan

open Publishing SkippedFile Sdk.Resolving

variable {c : Config} {s : Settings} {summary : Summary} {d d' : Disk} {p q : Plan}

def conflictsOf (s : Settings) (p : Plan) : List SkippedFile := conflictsFrom p.analyzer s {} p.files

theorem page_settled (a : Analyzer) (s : Settings) (file : Go.SourceFile) (state : Sdk.State) :
    settledPath Page.file (answer (page a s file) state) = file.path := by
  unfold page
  rw [answer_bind]
  cases answer (a.resourceCalls file s.comments) state <;> rfl

theorem pages_settled (a : Analyzer) (s : Settings) (files : List Go.SourceFile) (state : Sdk.State) :
    (answer (files.mapM (page a s)) state).map (settledPath Page.file) =
      files.map Go.SourceFile.path := by
  induction files generalizing state with
  | nil => rfl
  | cons file rest ih =>
    rw [answer_mapM_cons, List.map_cons, List.map_cons, page_settled, ih]

theorem pages_accounted (s : Settings) (p : Plan) :
    ((pagesOf s p).map Page.file ++ (conflictsOf s p).map SkippedFile.path).Perm
      (p.files.map Go.SourceFile.path) := by
  rw [← pages_settled p.analyzer s p.files {}]
  exact settled_perm Page.file _

-- The files that a scan has to account for.
def wanted (d : Disk) (c : Config) (root : Path) : List Path :=
  ((d.walk root).map Prod.fst).filter (Discovery.isWanted root c.settings.filter)

theorem wanted_apart (proper : d.Proper) (c : Config) (root : Path) :
    (wanted d c root).Pairwise fun a b => a.same b = false := by
  refine List.Pairwise.filter _ ?_
  rw [List.pairwise_map]
  exact proper.walk_apart root

theorem plan_accounted (proper : d.Proper) (planned : (plan d c).run.value = .ok p) :
    ∃ root, d.canonical? c.settings.sourceRoot = some root ∧
      ((pagesOf c.settings p).map Page.file ++
        (p.skipped ++ conflictsOf c.settings p).map SkippedFile.path).Perm (wanted d c root) := by
  obtain ⟨inputs, found, _, searched, planned⟩ := plan_exact.mp planned
  obtain ⟨root, canonical, searched, _⟩ := discover_exact.mp searched
  refine ⟨root, canonical, ?_⟩
  have files : p.files = (readResources d c.settings found.resources).value.1 := by rw [planned]
  have skipped : p.skipped =
      found.skipped ++ (readResources d c.settings found.resources).value.2 := by rw [planned]
  -- The three places where a file may be left out, counted for one path.
  rw [List.perm_iff_count]
  intro path
  have candidates := (Discovery.find_accounts searched).count_eq path
  have resources := (resources_accounted d c.settings found.resources).count_eq path
  have pages := (pages_accounted c.settings p).count_eq path
  rw [Discovery.candidates_paths proper] at candidates
  change _ = (wanted d c root).count path at candidates
  rw [← files] at resources
  simp only [skipped, List.map_append, List.count_append] at candidates resources pages ⊢
  omega

theorem skipped_apart (proper : d.Proper) (planned : (plan d c).run.value = .ok p) :
    Path.Apart SkippedFile.path (p.skipped ++ conflictsOf c.settings p) := by
  obtain ⟨root, _, accounted⟩ := plan_accounted proper planned
  have apart : Path.Apart id (wanted d c root) := wanted_apart proper c root
  have all := apart.perm accounted.symm
  exact List.pairwise_map.mp (List.pairwise_append.mp all).2.1

theorem publish_exact (ran : outcome (publish s p) d = (.ok summary, d')) :
    summary.documents = (pagesOf s p).map Page.target ∧
      summary.skipped = SkippedFile.sort (p.skipped ++ conflictsOf s p) := by
  unfold publish at ran
  obtain ⟨_, opened, _, ran⟩ := outcome_bind ran
  obtain ⟨w, closed, wrote, ran⟩ := outcome_bind ran
  obtain ⟨_, last, _, ran⟩ := outcome_bind ran
  obtain ⟨pages, skipped, _⟩ := writePages_exact wrote
  cases ran
  refine ⟨congrArg (List.map Page.target) pages, ?_⟩
  change SkippedFile.sort (p.skipped ++ w.skipped) = _
  rw [skipped]
  rfl

-- The order of the files left out does not matter when all have different paths.
theorem publish_perm (files : q.files = p.files) (analyzer : q.analyzer = p.analyzer)
    (skipped : q.skipped.Perm p.skipped)
    (apart : Path.Apart SkippedFile.path (p.skipped ++ conflictsOf s p)) :
    outcome (publish s q) d = outcome (publish s p) d := by
  unfold publish
  rw [files, analyzer]
  refine outcome_bind_congr fun _ opened _ => outcome_bind_congr fun w closed wrote => ?_
  obtain ⟨_, conflicts, _⟩ := writePages_exact wrote
  have conflicts : w.skipped = conflictsOf s p := conflicts
  have sorted : SkippedFile.sort (p.skipped ++ w.skipped) = SkippedFile.sort (q.skipped ++ w.skipped) :=
    Path.sortBy_eq (conflicts ▸ apart) (skipped.symm.append_right _)
  simp only [sorted]

theorem publish_pooled (proper : d.Proper) (pooled : Pooled d c q) :
    outcome (publish c.settings q) d = outcome (run c) d := by
  obtain ⟨p, planned, files, analyzer, skipped⟩ := pooled_exact pooled
  have started : outcome (run c) d = outcome (publish c.settings p) d :=
    outcome_bind_ok (outcome_reading.mpr ⟨planned, rfl⟩)
  exact (publish_perm files analyzer skipped (skipped_apart proper planned)).trans started.symm

-- Every candidate is the source of one document or one of the files left out, which stand in the
-- order of their paths. Nothing depends on the order in which the workers finish.
theorem scan_accounts (proper : d.Proper) (c : Config) :
    (∀ p, (plan d c).run.value = .ok p → Pooled d c p) ∧
    ∀ q, Pooled d c q → outcome (publish c.settings q) d = outcome (run c) d ∧
      ∀ summary d', outcome (run c) d = (.ok summary, d') →
        ∃ root, d.canonical? c.settings.sourceRoot = some root ∧
          summary.documents = (pagesOf c.settings q).map Page.target ∧
          ((pagesOf c.settings q).map Page.file ++ summary.skipped.map SkippedFile.path).Perm
            (wanted d c root) ∧
          (wanted d c root).Pairwise (fun a b => a.same b = false) ∧
          summary.skipped.Pairwise fun a b => a.path.before b.path = true := by
  refine ⟨fun p => plan_pooled, ?_⟩
  intro q pooled
  refine ⟨publish_pooled proper pooled, ?_⟩
  intro summary d' ran
  obtain ⟨p, planned, files, analyzer, _⟩ := pooled_exact pooled
  have pages : pagesOf c.settings q = pagesOf c.settings p := by
    rw [pagesOf, pagesOf, files, analyzer]
  have published : outcome (publish c.settings p) d = (.ok summary, d') :=
    (publish_pooled proper (plan_pooled planned)).trans ran
  obtain ⟨documents, skipped⟩ := publish_exact published
  obtain ⟨root, canonical, accounted⟩ := plan_accounted proper planned
  have listed : summary.skipped.Perm (p.skipped ++ conflictsOf c.settings p) :=
    skipped ▸ List.mergeSort_perm _ _
  refine ⟨root, canonical, ?_, ?_, wanted_apart proper c root, ?_⟩
  · rw [documents, pages]
  · rw [pages]
    exact .trans (.append_left _ (listed.map _)) accounted
  · rw [skipped]
    exact Path.sortBy_strict (skipped_apart proper planned)

def mixed : Disk where
  entries :=
    [(["s"], .dir), (["s", "old"], .dir), (["c.go"], .file (.text "")),
     (["e.json"], .file (.text "\x7b\x7d")), (["s", "notes.go"], .file (.text "")),
     (["s", "resource_b.go"], .file (.raw [0xFF])), (["s", "resource_a.go"], .file (.text "")),
     (["s", "old", "resource_c.go"], .file (.text ""))]

def mixedConfig : Config where
  settings := { twinConfig.settings with skipDirs := ["old"] }

def mixedFound : Discovery where
  resources := [⟨"/s/resource_a.go"⟩, ⟨"/s/resource_b.go"⟩]
  skipped := [⟨⟨"/s/old/resource_c.go"⟩, .skippedDir "old"⟩]

theorem mixed_proper : mixed.Proper := ⟨by decide, by decide, by decide⟩

theorem mixed_found : discover mixed mixedConfig twinInputs.schema = .ok mixedFound := by
  let selection := selectionOf mixedConfig twinInputs.schema
  let judged := (Discovery.candidates mixed ⟨"/s"⟩ selection.filter).map (Discovery.judge selection [])
  have globs : Discovery.globsOf selection.exclude = .ok [] := rfl
  have resources : kept judged = [⟨"/s/resource_b.go"⟩, ⟨"/s/resource_a.go"⟩] := by decide +kernel
  have skipped : leftOut judged = mixedFound.skipped := by decide +kernel
  have order : Path.before ⟨"/s/resource_a.go"⟩ ⟨"/s/resource_b.go"⟩ = true := by decide +kernel
  have alone : SkippedFile.sort mixedFound.skipped = mixedFound.skipped :=
    List.mergeSort_singleton _
  refine discover_exact.mpr ⟨⟨"/s"⟩, by decide +kernel, ?_, nofun⟩
  refine (Discovery.find_eq globs).trans ?_
  change Except.ok (Discovery.mk (Path.sort (kept judged)) (SkippedFile.sort (leftOut judged))) = _
  simp only [resources, skipped, sort_pair order, alone]
  rfl

def mixedPlan : Plan where
  files := [twin "/s/resource_a.go"]
  skipped := mixedFound.skipped ++ [⟨⟨"/s/resource_b.go"⟩, .unparseable
    (Failure.source ⟨"/s/resource_b.go"⟩ (.undecodable ⟨0, some 1⟩)).message⟩]
  analyzer := analyzerOf mixed mixedConfig.settings twinInputs

theorem mixed_planned : (plan mixed mixedConfig).run.value = .ok mixedPlan :=
  plan_exact.mpr ⟨twinInputs, mixedFound, rfl, mixed_found, rfl⟩

theorem mixed_succeeds : ∃ summary d', outcome (run mixedConfig) mixed = (.ok summary, d') :=
  run_completes mixed_planned (by decide +kernel)

theorem scan_accounts_mixed :
    ∃ summary d', outcome (run mixedConfig) mixed = (.ok summary, d') ∧
      (⟨"/s/resource_a.go"⟩ :: summary.skipped.map SkippedFile.path).Perm
        [⟨"/s/resource_b.go"⟩, ⟨"/s/resource_a.go"⟩, ⟨"/s/old/resource_c.go"⟩] ∧
      summary.skipped.Pairwise fun a b => a.path.before b.path = true := by
  obtain ⟨summary, d', ran⟩ := mixed_succeeds
  obtain ⟨pooled, every⟩ := scan_accounts mixed_proper mixedConfig
  obtain ⟨_, accounts⟩ := every mixedPlan (pooled mixedPlan mixed_planned)
  obtain ⟨root, canonical, _, accounted, _, sorted⟩ := accounts summary d' ran
  have found : mixed.canonical? mixedConfig.settings.sourceRoot = some ⟨"/s"⟩ := by decide +kernel
  cases found.symm.trans canonical
  have sources : (pagesOf mixedConfig.settings mixedPlan).map Page.file = [⟨"/s/resource_a.go"⟩] := by
    decide +kernel
  have candidates : wanted mixed mixedConfig ⟨"/s"⟩ =
      [⟨"/s/resource_b.go"⟩, ⟨"/s/resource_a.go"⟩, ⟨"/s/old/resource_c.go"⟩] := by decide +kernel
  rw [sources, candidates] at accounted
  exact ⟨summary, d', ran, accounted, sorted⟩

end CallAtlas.Run.Scan
