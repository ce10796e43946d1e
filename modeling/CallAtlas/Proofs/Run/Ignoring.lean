import CallAtlas.Config.Resolved
import CallAtlas.Proofs.Files.Globs
import CallAtlas.Proofs.Files.Places
import CallAtlas.Proofs.Files.Selections
import CallAtlas.Proofs.Run.Accounting

namespace CallAtlas

open CallAtlas.Text

namespace IgnoreFile

theorem pattern?_directory {line dir : String} (spelled : trim line = dir ++ "/")
    (plain : startsWith dir "#" = false) : pattern? line = some (dir ++ "/**") := by
  have filled : (dir ++ "/" == "") = false := by simp
  have counted : startsWith (dir ++ "/") "#" = false := by
    cases text : dir.toList with
    | nil => simp [startsWith, text, List.isPrefixOf]
    | cons c rest => simpa [startsWith, text, List.isPrefixOf] using plain
  have cut : stripEnd? (dir ++ "/") "/" = some dir := by
    simp [stripEnd?, endsWith]
  unfold pattern?
  dsimp only
  rw [spelled, filled, counted, cut]
  rfl

example : pattern? " old/ " = some "old/**" := by decide +kernel

theorem ancestors_head (start : Path) : ∃ rest, start.ancestors = start :: rest := by
  unfold Path.ancestors
  cases start.components.length with
  | zero => exact ⟨[], rfl⟩
  | succ n =>
    rw [Path.ancestorsFrom]
    cases start.parent? with
    | none => exact ⟨[], rfl⟩
    | some dir => exact ⟨_, rfl⟩

-- An ignore file in the directory itself is the nearest.
theorem find_here {disk : Disk} {start : Path} {content : String}
    (present : (disk.read? (start.join fileName)).bind Body.text? = some content) :
    (find disk start).value = ⟨some (start.join fileName), patternsOf content⟩ := by
  obtain ⟨rest, nearest⟩ := ancestors_head start
  have isFile : disk.isFile (start.join fileName) = true := by
    obtain ⟨body, read, _⟩ := Option.bind_eq_some_iff.mp present
    rw [Disk.isFile, read]
    rfl
  unfold find
  rw [nearest, List.map_cons, List.find?_cons_of_pos isFile]
  simp only [present, Noted.value_pure]

end IgnoreFile

theorem Config.resolve_patterns {d : Disk} {home : Option Path} {workingDir : Path} {flags : Layer}
    {c : Config} {content : String} (resolved : (resolve d home workingDir flags).run.value = .ok c)
    (present : (d.read? (workingDir.join IgnoreFile.fileName)).bind Body.text? = some content) :
    c.ignorePatterns = IgnoreFile.patternsOf content := by
  unfold resolve at resolved
  obtain ⟨user, _, resolved⟩ := Attempt.run_bind resolved
  obtain ⟨project, _, resolved⟩ := Attempt.run_bind resolved
  obtain ⟨ignoreFile, found, resolved⟩ := Attempt.run_bind resolved
  have found : (IgnoreFile.find d workingDir).value = ignoreFile := Except.ok.inj found
  rw [IgnoreFile.find_here present] at found
  subst found
  cases resolved
  rfl

namespace Run.Scan

open Publishing SkippedFile

variable {d d' : Disk} {c : Config} {p : Plan} {summary : Summary} {root : Place}

-- What a line for a directory covers of the files at and below the source root.
def Covers (root : Place) (dir : String) (file : Path) : Prop :=
  dir = "" ∨ ∃ holders more : Place, (∀ n ∈ holders ++ more, Path.IsName n) ∧ holders ≠ [] ∧ more ≠ [] ∧
    dir = join "/" holders ∧ file = Disk.pathOf (root ++ holders ++ more)

theorem startsWith_whole {dir : String} (relative : startsWith dir "/" = false) (place : Place) :
    startsWith (Disk.pathOf place).text (dir ++ "/") = true ↔ dir = "" := by
  have rooted : (Disk.pathOf place).text.toList = '/' :: (join "/" place).toList := by
    simp [Disk.pathOf]
  cases text : dir.toList with
  | nil =>
    have empty : dir = "" := by simpa using text
    simp [startsWith, rooted, empty]
  | cons c rest =>
    have other : c ≠ '/' := by
      rintro rfl
      simp [startsWith, text] at relative
    have filled : dir ≠ "" := by
      rintro rfl
      cases text
    simp [startsWith, rooted, text, other, filled]

theorem covers_exact (proper : d.Proper) (plain : ∀ n ∈ root, Path.IsName n) {dir : String}
    (relative : startsWith dir "/" = false) {filter : Option String} {f : Candidate}
    (member : f ∈ Discovery.candidates d (Disk.pathOf root) filter) :
    f.isExcluded [Glob.below Discovery.excludeRules dir] = true ↔ Covers root dir f.path := by
  obtain ⟨below, further, path, shown, slashless⟩ := Discovery.candidates_below proper plain member
  have names : ∀ n ∈ below, '/' ∉ n.toList := fun n inside => (further n inside).2.2.2
  have named : startsWith f.name (dir ++ "/") = false := by
    rw [Bool.eq_false_iff]
    intro leads
    obtain ⟨rest, spelled⟩ := List.isPrefixOf_iff_prefix.mp leads
    refine slashless (spelled ▸ ?_)
    simp
  simp only [Candidate.isExcluded, List.any_cons, List.any_nil, Bool.or_false, Bool.or_eq_true,
    Glob.below_accepts, named, Bool.false_eq_true, or_false, shown, startsWith_join names, path,
    startsWith_whole relative]
  rw [or_comm]
  refine or_congr_right (exists_congr fun holders => exists_congr fun more => ?_)
  constructor
  · rintro ⟨rfl, filled, left, spelled⟩
    exact ⟨further, filled, left, spelled, by rw [List.append_assoc]⟩
  · rintro ⟨named, filled, left, spelled, same⟩
    rw [List.append_assoc] at same
    have places := Disk.pathOf_inj (List.forall_mem_append.mpr ⟨plain, further⟩)
      (List.forall_mem_append.mpr ⟨plain, named⟩) same
    exact ⟨List.append_cancel_left places, filled, left, spelled⟩

-- A file below the directory that a line names from the working directory is covered exactly if it lies
-- below the same names from the source root.
theorem covers_under (proper : d.Proper) {workingDir : Path} {w target holders more : Place}
    (start : d.locate? workingDir = some w) (plain : ∀ n ∈ holders ++ more, Path.IsName n)
    (filled : holders ≠ []) (relative : startsWith (join "/" holders) "/" = false)
    (located : d.locate? (workingDir.join (join "/" holders)) = some target)
    (roots : ∀ n ∈ root, Path.IsName n) :
    target = w ++ holders ∧ (Covers root (join "/" holders) (Disk.pathOf (target ++ more)) ↔
      ∃ below, below ≠ [] ∧ target ++ more = root ++ holders ++ below) := by
  obtain ⟨named, further⟩ := List.forall_mem_append.mp plain
  obtain ⟨whole, directory⟩ := Disk.locate?_names named filled relative start located
  have opened : ∀ n ∈ w, Path.IsName n := by
    have present : d.entry? w = some .dir := by simpa [Disk.isDirAt] using directory
    exact proper.entry_named present
  have slashless : ∀ {names : List String}, (∀ n ∈ names, Path.IsName n) → ∀ n ∈ names, '/' ∉ n.toList :=
    fun all n inside => (all n inside).2.2.2
  have whole_named : ∀ n ∈ target ++ more, Path.IsName n := by
    rw [whole]
    exact List.forall_mem_append.mpr ⟨List.forall_mem_append.mpr ⟨opened, named⟩, further⟩
  refine ⟨whole, ?_⟩
  constructor
  · rintro (empty | ⟨others, below, others_named, others_filled, left, spelled, same⟩)
    · have pieces := congrArg (split '/') empty
      rw [split_join (slashless named) filled] at pieces
      have blank : "" ∈ holders := by
        rw [pieces]
        decide
      exact absurd rfl (named "" blank).1
    · obtain ⟨first, last⟩ := List.forall_mem_append.mp others_named
      cases join_names_inj (slashless named) (slashless first) filled others_filled spelled
      refine ⟨below, left, Disk.pathOf_inj whole_named ?_ same⟩
      exact List.forall_mem_append.mpr ⟨List.forall_mem_append.mpr ⟨roots, named⟩, last⟩
  · rintro ⟨below, left, same⟩
    rw [same] at whole_named ⊢
    exact .inr ⟨holders, below, List.forall_mem_append.mpr ⟨named, (List.forall_mem_append.mp whole_named).2⟩,
      filled, left, rfl, rfl⟩

theorem plan_skips (planned : (plan d c).run.value = .ok p) {root : Path}
    (canonical : d.canonical? c.settings.sourceRoot = some root) {pattern : String} {glob : Glob}
    (chosen : pattern ∈ c.ignorePatterns) (parsed : Glob.read? Discovery.excludeRules pattern = some glob)
    {f : Candidate} (member : f ∈ Discovery.candidates d root c.settings.filter)
    (excluded : f.isExcluded [glob] = true) : f.path ∈ p.skipped.map SkippedFile.path := by
  obtain ⟨inputs, found, _, searched, rfl⟩ := plan_exact.mp planned
  obtain ⟨_, canonical', searched, _⟩ := discover_exact.mp searched
  cases canonical.symm.trans canonical'
  obtain ⟨globs, read⟩ := Discovery.find_read searched
  cases (Discovery.find_eq read).symm.trans searched
  have rule : f.LeftOut (selectionOf c inputs.schema) :=
    .excluded (List.mem_append_right _ chosen) parsed excluded
  obtain ⟨reason, skipped⟩ := Option.isSome_iff_exists.mp ((Candidate.skipReason?_isSome read).mpr rule)
  have judged : Discovery.judge (selectionOf c inputs.schema) globs f = .error ⟨f.path, reason⟩ := by
    rw [Discovery.judge, skipped]
  have left : (⟨f.path, reason⟩ : SkippedFile) ∈ leftOut ((Discovery.candidates d root
      (selectionOf c inputs.schema).filter).map (Discovery.judge (selectionOf c inputs.schema) globs)) :=
    List.mem_filterMap.mpr ⟨_, List.mem_map_of_mem member, by rw [judged]; rfl⟩
  rw [List.map_append]
  refine List.mem_append_left _ (List.mem_map.mpr ⟨⟨f.path, reason⟩, ?_, rfl⟩)
  exact (List.mergeSort_perm _ _).symm.subset left

theorem page_not_skipped (proper : d.Proper) (planned : (plan d c).run.value = .ok p) {file : Path}
    (skipped : file ∈ p.skipped.map SkippedFile.path) : file ∉ (pagesOf c.settings p).map Page.file := by
  obtain ⟨root, _, accounted⟩ := plan_accounted proper planned
  have apart : Path.Apart id (wanted d c root) := wanted_apart proper c root
  have all := List.pairwise_append.mp (apart.perm accounted.symm)
  intro paged
  have listed : file ∈ (p.skipped ++ conflictsOf c.settings p).map SkippedFile.path := by
    rw [List.map_append]
    exact List.mem_append_left _ skipped
  have different : file.same file = false := all.2.2 file paged file listed
  rw [Path.same_refl] at different
  cases different

theorem covered_skipped (proper : d.Proper) (planned : (plan d c).run.value = .ok p)
    (canonical : d.canonical? c.settings.sourceRoot = some (Disk.pathOf root))
    {file : Path} (left : file ∈ wanted d c (Disk.pathOf root) → file ∈ p.skipped.map SkippedFile.path) :
    file ∉ (pagesOf c.settings p).map Page.file ∧
      ∀ summary d', outcome (run c) d = (.ok summary, d') → file ∈ wanted d c (Disk.pathOf root) →
        file ∈ summary.skipped.map SkippedFile.path := by
  constructor
  · intro paged
    obtain ⟨_, canonical', accounted⟩ := plan_accounted proper planned
    cases canonical.symm.trans canonical'
    exact page_not_skipped proper planned (left (accounted.subset (List.mem_append_left _ paged))) paged
  · intro summary d' ran visited
    have published : outcome (publish c.settings p) d = (.ok summary, d') :=
      (outcome_bind_ok (outcome_reading.mpr ⟨planned, rfl⟩)).symm.trans ran
    have listed : summary.skipped.Perm (p.skipped ++ conflictsOf c.settings p) :=
      (publish_exact published).2 ▸ List.mergeSort_perm _ _
    refine (listed.map SkippedFile.path).symm.subset ?_
    rw [List.map_append]
    exact List.mem_append_left _ (left visited)

-- The line's glob accepts the files that lie below the directory from the source root, and no others.
-- Those are listed as left out when they are met, and have no document. From the working directory, whose
-- ignore file it is, the line means what it says only as far as both directories agree.
theorem ignored_exact (proper : d.Proper) {home : Option Path} {workingDir : Path} {flags : Layer}
    {content line dir : String} (resolved : (Config.resolve d home workingDir flags).run.value = .ok c)
    (present : (d.read? (workingDir.join IgnoreFile.fileName)).bind Body.text? = some content)
    (listed : line ∈ lines content) (spelled : trim line = dir ++ "/")
    (relative : startsWith dir "/" = false) (counted : startsWith dir "#" = false)
    (plain : Glob.Plain dir) (planned : (plan d c).run.value = .ok p) :
    ∃ root pattern glob, (∀ n ∈ root, Path.IsName n) ∧
      d.canonical? c.settings.sourceRoot = some (Disk.pathOf root) ∧
      IgnoreFile.pattern? line = some pattern ∧ pattern ∈ c.ignorePatterns ∧
      Glob.read? Discovery.excludeRules pattern = some glob ∧
      (∀ f ∈ Discovery.candidates d (Disk.pathOf root) c.settings.filter,
        f.isExcluded [glob] = true ↔ Covers root dir f.path) ∧
      (∀ file, Covers root dir file → file ∉ (pagesOf c.settings p).map Page.file ∧
        ∀ summary d', outcome (run c) d = (.ok summary, d') → file ∈ wanted d c (Disk.pathOf root) →
          file ∈ summary.skipped.map SkippedFile.path) ∧
      ∀ w target holders more, d.locate? workingDir = some w → dir = join "/" holders → holders ≠ [] →
        (∀ n ∈ holders ++ more, Path.IsName n) → d.locate? (workingDir.join dir) = some target →
        target = w ++ holders ∧ (Covers root dir (Disk.pathOf (target ++ more)) ↔
          ∃ below, below ≠ [] ∧ target ++ more = root ++ holders ++ below) := by
  have pattern := IgnoreFile.pattern?_directory spelled counted
  have parsed : Glob.read? Discovery.excludeRules (dir ++ "/**") = _ := Glob.read?_below plain
  have chosen : dir ++ "/**" ∈ c.ignorePatterns := by
    rw [Config.resolve_patterns resolved present]
    exact List.mem_filterMap.mpr ⟨line, listed, pattern⟩
  obtain ⟨_, canonical, _⟩ := plan_accounted proper planned
  obtain ⟨root, rfl, _, roots⟩ := proper.canonical?_exact canonical
  refine ⟨root, _, _, roots, canonical, pattern, chosen, parsed, ?_, ?_, ?_⟩
  · intro f member
    exact covers_exact proper roots relative member
  · intro file covered
    refine covered_skipped proper planned canonical ?_
    intro visited
    rw [wanted, ← Discovery.candidates_paths proper] at visited
    obtain ⟨f, member, rfl⟩ := List.mem_map.mp visited
    exact plan_skips planned canonical chosen parsed member
      ((covers_exact proper roots relative member).mpr covered)
  · rintro w target holders more start rfl filled named located
    exact covers_under proper start named filled relative located roots

def guarded (line : String) : Disk where
  entries :=
    [(["s"], .dir), (["s", "old"], .dir), (["c.go"], .file (.text "")),
     (["e.json"], .file (.text "\x7b\x7d")), ([".apiscanignore"], .file (.text line)),
     (["s", "resource_y.go"], .file (.text "")), (["s", "old", "resource_x.go"], .file (.text ""))]

def guardedLayer : Layer where
  sourceDir := some ⟨"s"⟩
  configFile := some ⟨"c.go"⟩
  catalogFile := some ⟨"e.json"⟩
  skipDirs := some []
  deprecated := some []
  codeMarkers := some []
  pendingUpgrade := some []

def guardedConfig (patterns : List String) : Config :=
  ((Config.initial ⟨"/"⟩).addFlags guardedLayer).addIgnoreFile ⟨some ⟨"/.apiscanignore"⟩, patterns⟩

theorem guarded_proper (line : String) : (guarded line).Proper :=
  ⟨by simp [guarded], by simp [guarded], by
    simp only [guarded, List.forall_mem_cons, List.not_mem_nil, false_implies, implies_true, and_true]
    decide⟩

theorem guarded_resolved {line : String} {patterns : List String}
    (plain : Config.projectFile? (guarded line) ⟨"/"⟩ = none)
    (found : (IgnoreFile.find (guarded line) ⟨"/"⟩).value = ⟨some ⟨"/.apiscanignore"⟩, patterns⟩) :
    (Config.resolve (guarded line) none ⟨"/"⟩ guardedLayer).run.value = .ok (guardedConfig patterns) := by
  have project : ((Config.initial ⟨"/"⟩).addProjectFile (guarded line) ⟨"/"⟩).run.value =
      .ok (Config.initial ⟨"/"⟩) := by
    unfold Config.addProjectFile
    rw [plain]
    rfl
  have ignoring : (liftM (IgnoreFile.find (guarded line) ⟨"/"⟩) : Attempt IgnoreFile).run.value =
      .ok ⟨some ⟨"/.apiscanignore"⟩, patterns⟩ := congrArg Except.ok found
  unfold Config.resolve
  rw [Attempt.run_bind_ok rfl, Attempt.run_bind_ok project, Attempt.run_bind_ok ignoring]
  rfl

def guardedInputs : Inputs := ⟨{}, {}, .acceptAll "huaweicloud"⟩

def coveredPlan : Plan where
  files := [twin "/s/resource_y.go"]
  skipped := [⟨⟨"/s/old/resource_x.go"⟩, .excluded⟩]
  analyzer := analyzerOf (guarded "old/") (guardedConfig ["old/**"]).settings guardedInputs

theorem covered_planned : (plan (guarded "old/") (guardedConfig ["old/**"])).run.value = .ok coveredPlan := by
  have read : Discovery.globsOf ["old/**"] = .ok [Glob.below Discovery.excludeRules "old"] := by
    have parsed : Glob.read? Discovery.excludeRules "old/**" = _ :=
      Glob.read?_below (by decide : Glob.Plain "old")
    simp [Discovery.globsOf, parsed]
  have found := @discover_judged (guarded "old/") (guardedConfig ["old/**"]) guardedInputs.schema ⟨"/s"⟩ _
    [⟨"/s/resource_y.go"⟩] [⟨⟨"/s/old/resource_x.go"⟩, .excluded⟩] (by decide +kernel) read
    (by decide +kernel) (by simp [Path.sort])
  rw [Path.sort, List.mergeSort_singleton, SkippedFile.sort, List.mergeSort_singleton] at found
  exact plan_exact.mpr ⟨guardedInputs, _, rfl, found, rfl⟩

theorem ignored_exact_covered :
    ∃ c p summary d', (Config.resolve (guarded "old/") none ⟨"/"⟩ guardedLayer).run.value = .ok c ∧
      (plan (guarded "old/") c).run.value = .ok p ∧ outcome (run c) (guarded "old/") = (.ok summary, d') ∧
      ⟨"/s/old/resource_x.go"⟩ ∉ (pagesOf c.settings p).map Page.file ∧
      ⟨"/s/old/resource_x.go"⟩ ∈ summary.skipped.map SkippedFile.path := by
  have resolved : (Config.resolve (guarded "old/") none ⟨"/"⟩ guardedLayer).run.value =
      .ok (guardedConfig ["old/**"]) := guarded_resolved (by decide +kernel) (by decide +kernel)
  obtain ⟨summary, d', ran⟩ := run_completes covered_planned (by decide +kernel)
  obtain ⟨root, _, _, named, canonical, _, _, _, _, left, _⟩ :=
    @ignored_exact _ _ _ (guarded_proper "old/") none ⟨"/"⟩ guardedLayer "old/" "old/" "old" resolved
      (by decide +kernel) (by decide +kernel) (by decide +kernel) (by decide) (by decide) (by decide)
      covered_planned
  have there : (guarded "old/").canonical? (guardedConfig ["old/**"]).settings.sourceRoot =
      some (Disk.pathOf ["s"]) := by decide +kernel
  cases Disk.pathOf_inj named (by decide) (Option.some.inj (canonical.symm.trans there))
  have covered : Covers ["s"] "old" ⟨"/s/old/resource_x.go"⟩ :=
    .inr ⟨["old"], ["resource_x.go"], by decide, by decide, by decide, by decide +kernel, by decide +kernel⟩
  have met : ⟨"/s/old/resource_x.go"⟩ ∈ wanted (guarded "old/") (guardedConfig ["old/**"]) ⟨"/s"⟩ := by
    decide +kernel
  obtain ⟨undocumented, listed⟩ := left _ covered
  exact ⟨_, _, summary, d', resolved, covered_planned, ran, undocumented, listed summary d' ran met⟩

def uncoveredPlan : Plan where
  files := [twin "/s/old/resource_x.go", twin "/s/resource_y.go"]
  skipped := []
  analyzer := analyzerOf (guarded "s/old/") (guardedConfig ["s/old/**"]).settings guardedInputs

theorem uncovered_planned :
    (plan (guarded "s/old/") (guardedConfig ["s/old/**"])).run.value = .ok uncoveredPlan := by
  have parsed : Glob.read? Discovery.excludeRules "s/old/**" = _ :=
    Glob.read?_below (by decide : Glob.Plain "s/old")
  have read : Discovery.globsOf ["s/old/**"] = .ok [Glob.below Discovery.excludeRules "s/old"] := by
    simp [Discovery.globsOf, parsed]
  have order : Path.sort [⟨"/s/resource_y.go"⟩, ⟨"/s/old/resource_x.go"⟩] =
      [⟨"/s/old/resource_x.go"⟩, ⟨"/s/resource_y.go"⟩] := sort_pair (by decide +kernel)
  have found := @discover_judged (guarded "s/old/") (guardedConfig ["s/old/**"]) guardedInputs.schema ⟨"/s"⟩ _
    [⟨"/s/resource_y.go"⟩, ⟨"/s/old/resource_x.go"⟩] [] (by decide +kernel) read (by decide +kernel)
    (by rw [order]; exact List.cons_ne_nil _ _)
  rw [order, SkippedFile.sort, List.mergeSort_nil] at found
  exact plan_exact.mpr ⟨guardedInputs, _, rfl, found, rfl⟩

-- The line `s/old/` stands in the ignore file of `/`, and `/s/old/resource_x.go` has a document.
theorem named_directory_documented :
    ∃ c p summary d', (Config.resolve (guarded "s/old/") none ⟨"/"⟩ guardedLayer).run.value = .ok c ∧
      c.settings.basePath = ⟨"/"⟩ ∧
      (((guarded "s/old/").read? ⟨"/.apiscanignore"⟩).bind Body.text?).map lines = some ["s/old/"] ∧
      (plan (guarded "s/old/") c).run.value = .ok p ∧ outcome (run c) (guarded "s/old/") = (.ok summary, d') ∧
      (pagesOf c.settings p).map Page.file = [⟨"/s/old/resource_x.go"⟩, ⟨"/s/resource_y.go"⟩] ∧
      summary.documents = [⟨"/api/resource_x.yaml"⟩, ⟨"/api/resource_y.yaml"⟩] := by
  have resolved : (Config.resolve (guarded "s/old/") none ⟨"/"⟩ guardedLayer).run.value =
      .ok (guardedConfig ["s/old/**"]) := guarded_resolved (by decide +kernel) (by decide +kernel)
  obtain ⟨summary, d', ran⟩ := run_completes uncovered_planned (by decide +kernel)
  obtain ⟨p, _, _, _, planned, _, _, _, documents⟩ := run_exact ran
  rw [uncovered_planned] at planned
  obtain rfl := Except.ok.inj planned
  refine ⟨_, _, summary, d', resolved, rfl, by decide +kernel, uncovered_planned, ran, by decide +kernel, ?_⟩
  rw [documents]
  decide +kernel

end Run.Scan

end CallAtlas
