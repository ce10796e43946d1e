import CallAtlas.Proofs.Go.ResourceNames
import CallAtlas.Proofs.Run.Accounting

namespace CallAtlas

open CallAtlas.Text

-- A name in which an entry of a list occurs.
def Lists (entries : List String) (name : String) : Prop := ∃ e ∈ entries, e.toList <:+: name.toList

theorem Settings.isPendingUpgrade_iff (s : Settings) (name : String) :
    s.isPendingUpgrade name = true ↔ Lists s.pendingUpgrade name := by
  unfold isPendingUpgrade Lists
  rw [List.any_eq_true]
  simp only [contains, Text.occursIn_iff]

namespace Run.Scan

open Publishing

variable {c : Config} {summary : Summary} {d d' : Disk}

def stemOf (file : Path) : String := file.fileStem?.getD ""

theorem documentOf_description (s : Settings) (registry : Catalog.Registry) (file : Path) (calls : List Call) :
    ((documentOf s registry file calls).description = Document.pendingDescription ↔
        Lists s.pendingUpgrade (Go.resourceName (stemOf file))) ∧
      ((documentOf s registry file calls).description ≠ Document.pendingDescription →
        (documentOf s registry file calls).description = "") := by
  have filled : "" ≠ Document.pendingDescription := by decide
  have shown : (documentOf s registry file calls).description =
      if s.isPendingUpgrade (Go.resourceName (stemOf file)) then Document.pendingDescription else "" := rfl
  rw [shown, ← s.isPendingUpgrade_iff]
  split
  · rename_i marked
    simp [marked]
  · rename_i unmarked
    simp [unmarked, filled]

-- Every page that is written. What a version at the end of the stem holds of an entry does not count.
theorem pending_exact (ran : outcome (run c) d = (.ok summary, d')) :
    ∃ (p : Plan) (opened closed : Disk) (list : String), (plan d c).run.value = .ok p ∧
      d.makeDirectories c.settings.outputRoot = .ok opened ∧
      opened.writeAll ((pagesOf c.settings p).map (Page.written c.settings)) = some closed ∧
      closed.write (c.settings.outputRoot.join skipListName) list = some d' ∧
      summary.documents = (pagesOf c.settings p).map Page.target ∧
      ∀ q ∈ pagesOf c.settings p,
        (∀ name version, IsVersion version → stemOf q.file = name ++ version →
          (q.document.description = Document.pendingDescription ↔ Lists c.settings.pendingUpgrade name)) ∧
        ((∀ name version, IsVersion version → stemOf q.file ≠ name ++ version) →
          (q.document.description = Document.pendingDescription ↔
            Lists c.settings.pendingUpgrade (stemOf q.file))) ∧
        (q.document.description ≠ Document.pendingDescription → q.document.description = "") := by
  obtain ⟨p, opened, closed, list, planned, made, wrote, listed, documents⟩ := run_exact ran
  refine ⟨p, opened, closed, list, planned, made, wrote, listed, documents, ?_⟩
  intro q member
  obtain ⟨file, _, path, _, document⟩ := mem_pagesFrom member
  obtain ⟨marked, unmarked⟩ := documentOf_description c.settings p.analyzer.registry q.file q.calls
  rw [← path] at document
  rw [document]
  refine ⟨?_, ?_, unmarked⟩
  · intro name version ends stem
    rw [marked, stem, Go.resourceName_versioned ends]
  · intro plain
    rw [marked, Go.resourceName_plain plain]

def clusters : Disk where
  entries :=
    [(["s"], .dir), (["c.go"], .file (.text "")), (["e.json"], .file (.text "\x7b\x7d")),
     (["s", "resource_huaweicloud_dws_cluster.go"], .file (.text "")),
     (["s", "resource_huaweicloud_cdm_cluster_v1.go"], .file (.text ""))]

def clusterConfig : Config where
  settings := { twinConfig.settings with pendingUpgrade := usualPendingUpgrade }

def clusterFiles : List Path :=
  [⟨"/s/resource_huaweicloud_cdm_cluster_v1.go"⟩, ⟨"/s/resource_huaweicloud_dws_cluster.go"⟩]

def clusterPlan : Plan where
  files := clusterFiles.map fun path => twin path.text
  skipped := []
  analyzer := analyzerOf clusters clusterConfig.settings twinInputs

theorem clusters_found : discover clusters clusterConfig twinInputs.schema = .ok ⟨clusterFiles, []⟩ := by
  let selection := selectionOf clusterConfig twinInputs.schema
  let judged := (Discovery.candidates clusters ⟨"/s"⟩ selection.filter).map (Discovery.judge selection [])
  have globs : Discovery.globsOf selection.exclude = .ok [] := rfl
  have resources : SkippedFile.kept judged = clusterFiles.reverse := by decide +kernel
  have skipped : SkippedFile.leftOut judged = [] := by decide +kernel
  have order : Path.before ⟨"/s/resource_huaweicloud_cdm_cluster_v1.go"⟩
      ⟨"/s/resource_huaweicloud_dws_cluster.go"⟩ = true := by decide +kernel
  have none : SkippedFile.sort [] = [] := List.mergeSort_nil
  refine discover_exact.mpr ⟨⟨"/s"⟩, by decide +kernel, ?_, nofun⟩
  refine (Discovery.find_eq globs).trans ?_
  change Except.ok (Discovery.mk (Path.sort (SkippedFile.kept judged))
    (SkippedFile.sort (SkippedFile.leftOut judged))) = _
  rw [resources, skipped, none]
  exact congrArg (fun files => Except.ok (Discovery.mk files [])) (sort_pair order)

theorem clusters_planned : (plan clusters clusterConfig).run.value = .ok clusterPlan :=
  plan_exact.mpr ⟨twinInputs, ⟨clusterFiles, []⟩, rfl, clusters_found, rfl⟩

theorem clusters_succeed : ∃ summary d', outcome (run clusterConfig) clusters = (.ok summary, d') :=
  run_completes clusters_planned (by decide +kernel)

theorem pending_exact_clusters :
    ∃ summary d', outcome (run clusterConfig) clusters = (.ok summary, d') ∧
      summary.documents = (pagesOf clusterConfig.settings clusterPlan).map Page.target ∧
      ∀ q ∈ pagesOf clusterConfig.settings clusterPlan,
        stemOf q.file = "resource_huaweicloud_cdm_cluster" ++ "_v1" →
          (q.document.description = Document.pendingDescription ↔
            Lists usualPendingUpgrade "resource_huaweicloud_cdm_cluster") := by
  have version : IsVersion "_v1" := ⟨['1'], by decide, List.forall_mem_singleton.mpr (by decide), by decide⟩
  obtain ⟨summary, d', ran⟩ := clusters_succeed
  obtain ⟨p, _, _, _, planned, _, _, _, documents, pages⟩ := pending_exact ran
  cases planned.symm.trans clusters_planned
  refine ⟨summary, d', ran, documents, ?_⟩
  intro q member stem
  exact (pages q member).1 _ _ version stem

-- The name of the first file is an entry of the usual list, and its document does not say so.
theorem listed_version_unmarked :
    (∃ summary d', outcome (run clusterConfig) clusters = (.ok summary, d')) ∧
      (plan clusters clusterConfig).run.value = .ok clusterPlan ∧
      clusterConfig.settings.pendingUpgrade = usualPendingUpgrade ∧
      "resource_huaweicloud_cdm_cluster_v1" ∈ usualPendingUpgrade ∧
      ∃ q ∈ pagesOf clusterConfig.settings clusterPlan,
        stemOf q.file = "resource_huaweicloud_cdm_cluster_v1" ∧ q.document.description = "" := by
  have shown : (pagesOf clusterConfig.settings clusterPlan).map
      (fun q => (stemOf q.file, q.document.description)) =
        [("resource_huaweicloud_cdm_cluster_v1", ""),
         ("resource_huaweicloud_dws_cluster", Document.pendingDescription)] := by decide +kernel
  refine ⟨clusters_succeed, clusters_planned, rfl, by decide, ?_⟩
  obtain ⟨q, member, pair⟩ := List.mem_map.mp (shown.symm ▸ List.mem_cons_self)
  obtain ⟨stem, description⟩ := Prod.mk.inj pair
  exact ⟨q, member, stem, description⟩

end Run.Scan

end CallAtlas
