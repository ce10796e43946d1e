import CallAtlas.Proofs.Files.Candidates
import CallAtlas.Proofs.Run.Outcomes
import CallAtlas.Run.Scan

namespace CallAtlas.Run

open SkippedFile

variable {d : Disk} {c : Config}

-- The file for generated packages is not required.
theorem readIndex_fails {s : Settings} :
    (readIndex d s).Fails ↔ d.read? s.configPath = none ∨
      ∃ body e, d.read? s.configPath = some body ∧
        Go.SourceFile.ofBody s.configPath body = .error e := by
  unfold readIndex
  cases found : d.read? s.configPath with
  | none => exact ⟨fun _ => .inl rfl, fun _ => ⟨_, rfl⟩⟩
  | some body =>
    dsimp only
    rw [Attempt.fails_bind, Attempt.fails_lift]
    constructor
    · rintro (⟨e, faulty⟩ | ⟨file, _, failed⟩)
      · exact .inr ⟨body, e, rfl, faulty⟩
      · refine absurd failed ?_
        cases (d.read? s.hcConfigPath).map (Go.SourceFile.ofBody s.hcConfigPath) with
        | none => exact Attempt.not_fails_of_gives rfl
        | some parsed => cases parsed <;> exact Attempt.not_fails_of_gives rfl
    · rintro (absent | ⟨_, e, present, faulty⟩)
      · cases absent
      · cases present
        exact .inl ⟨e, faulty⟩

theorem readSchema_error {s : Settings} {e : Failure} :
    readSchema d s = .error e ↔ ∃ path, s.schema = some path ∧
      Schema.ofFile (s.underBase path) (d.read? (s.underBase path)) s.provider = .error e := by
  unfold readSchema
  cases s.schema with
  | none => simp
  | some path => simp

theorem readInputs_fails {s : Settings} :
    (readInputs d s).Fails ↔ (readIndex d s).Fails ∨
      (∃ e, (Catalog.Registry.ofFile s.catalogPath (d.read? s.catalogPath)).value = .error e) ∨
      ∃ e, readSchema d s = .error e := by
  unfold readInputs
  refine Attempt.fails_bind_either fun index => Attempt.fails_bind_either fun registry => ?_
  cases read : readSchema d s with
  | ok schema =>
    constructor
    · intro failed
      refine absurd failed ?_
      dsimp only
      split <;> exact Attempt.not_fails_of_gives rfl
    · rintro ⟨_, ⟨⟩⟩
  | error e =>
    dsimp only
    split <;> exact ⟨fun _ => ⟨e, rfl⟩, fun _ => ⟨e, rfl⟩⟩

theorem readInputs_schema {s : Settings} {inputs : Inputs}
    (read : (readInputs d s).run.value = .ok inputs) : readSchema d s = .ok inputs.schema := by
  unfold readInputs at read
  obtain ⟨index, _, read⟩ := Attempt.run_bind read
  obtain ⟨registry, _, read⟩ := Attempt.run_bind read
  dsimp only at read
  cases found : readSchema d s with
  | ok schema =>
    rw [found] at read
    split at read <;> cases read <;> rfl
  | error e =>
    rw [found] at read
    split at read <;> cases read

namespace Scan

theorem discover_exact {schema : Schema} {found : Discovery} :
    discover d c schema = .ok found ↔ ∃ root, d.canonical? c.settings.sourceRoot = some root ∧
      Discovery.find d root (selectionOf c schema) = .ok found ∧ found.resources ≠ [] := by
  unfold discover
  dsimp only
  cases d.canonical? c.settings.sourceRoot with
  | none => simp
  | some root =>
    simp only [Option.some.injEq, exists_eq_left']
    cases Discovery.find d root (selectionOf c schema) with
    | error e => exact ⟨nofun, nofun⟩
    | ok all =>
      change (if all.resources.isEmpty = true then Except.error _ else Except.ok all) = _ ↔ _
      by_cases none : all.resources = []
      · simp only [none, List.isEmpty_nil, if_true, Except.ok.injEq]
        refine ⟨nofun, ?_⟩
        rintro ⟨rfl, some⟩
        exact absurd none some
      · simp only [List.isEmpty_iff, none, if_false, Except.ok.injEq]
        refine ⟨?_, And.left⟩
        rintro rfl
        exact ⟨rfl, none⟩

theorem discover_judged {schema : Schema} {root : Path} {globs : List Glob} {resources : List Path}
    {skipped : List SkippedFile} (canonical : d.canonical? c.settings.sourceRoot = some root)
    (read : Discovery.globsOf (c.settings.exclude ++ c.ignorePatterns) = .ok globs)
    (judged : (Discovery.candidates d root c.settings.filter).map
        (Discovery.judge (selectionOf c schema) globs) = resources.map .ok ++ skipped.map .error)
    (filled : Path.sort resources ≠ []) :
    discover d c schema = .ok ⟨Path.sort resources, SkippedFile.sort skipped⟩ := by
  have patterns : Discovery.globsOf (selectionOf c schema).exclude = .ok globs := read
  refine discover_exact.mpr ⟨root, canonical, ?_, filled⟩
  refine (Discovery.find_eq patterns).trans ?_
  change Except.ok (Discovery.mk (Path.sort (kept ((Discovery.candidates _ _ c.settings.filter).map _)))
    (SkippedFile.sort (leftOut ((Discovery.candidates _ _ c.settings.filter).map _)))) = _
  rw [judged]
  simp [kept, leftOut, List.filterMap_map, Function.comp_def, Except.toOption, refusal?]

theorem discover_error {schema : Schema} :
    (∃ e, discover d c schema = .error e) ↔ d.canonical? c.settings.sourceRoot = none ∨
      ∃ root, d.canonical? c.settings.sourceRoot = some root ∧
        ((∃ e, Discovery.globsOf (c.settings.exclude ++ c.ignorePatterns) = .error e) ∨
          ∃ globs, Discovery.globsOf (c.settings.exclude ++ c.ignorePatterns) = .ok globs ∧
            ∀ f ∈ Discovery.candidates d root c.settings.filter,
              (f.skipReason? (selectionOf c schema) globs).isSome = true) := by
  have either : (∃ e, discover d c schema = .error e) ↔ ∀ found, discover d c schema ≠ .ok found := by
    cases discover d c schema <;> simp
  simp only [either, ne_eq, discover_exact, not_exists, not_and, not_not]
  cases d.canonical? c.settings.sourceRoot with
  | none => simp
  | some root =>
    simp only [Option.some.injEq, forall_eq', reduceCtorEq, false_or, exists_eq_left']
    cases read : Discovery.globsOf (c.settings.exclude ++ c.ignorePatterns) with
    | error e =>
      have failed : Discovery.find d root (selectionOf c schema) = .error e :=
        Discovery.find_failed read
      simp [failed]
    | ok globs =>
      have patterns : Discovery.globsOf (selectionOf c schema).exclude = .ok globs := read
      have searched := @Discovery.find_eq d root (selectionOf c schema) globs patterns
      have empty := Discovery.find_empty patterns searched
      simp only [searched, Except.ok.injEq, forall_eq', reduceCtorEq, exists_false, false_or,
        exists_eq_left']
      exact empty

-- What reading a resource file comes to.
def readOutcome (d : Disk) (s : Settings) (path : Path) : Except SkippedFile Go.SourceFile :=
  match readResource d s path with
  | .ok file => .ok file
  | .error e => .error ⟨path, .unparseable e.message⟩

theorem readResources_eq (d : Disk) (s : Settings) (paths : List Path) :
    (readResources d s paths).value =
      (kept (paths.map (readOutcome d s)), leftOut (paths.map (readOutcome d s))) := by
  induction paths with
  | nil => rfl
  | cons path rest ih =>
    rw [readResources, List.map_cons, readOutcome]
    cases readResource d s path with
    | ok file =>
      simp only [Noted.value_bind, Noted.value_pure, ih]
      rfl
    | error e =>
      simp only [Noted.value_bind, Noted.value_pure, ih]
      rfl

theorem plan_exact {p : Plan} : (plan d c).run.value = .ok p ↔ ∃ inputs found,
    (readInputs d c.settings).run.value = .ok inputs ∧ discover d c inputs.schema = .ok found ∧
      p = ⟨(readResources d c.settings found.resources).value.1,
        found.skipped ++ (readResources d c.settings found.resources).value.2,
        analyzerOf d c.settings inputs⟩ := by
  unfold plan
  constructor
  · intro planned
    obtain ⟨inputs, read, planned⟩ := Attempt.run_bind planned
    obtain ⟨found, searched, planned⟩ := Attempt.run_bind planned
    obtain ⟨⟨files, unreadable⟩, resources, planned⟩ := Attempt.run_bind planned
    have given : (readResources d c.settings found.resources).value = (files, unreadable) :=
      Except.ok.inj resources
    obtain rfl := Except.ok.inj planned
    exact ⟨inputs, found, read, searched, by rw [given]⟩
  · rintro ⟨inputs, found, read, searched, rfl⟩
    dsimp only
    rw [Attempt.run_bind_ok read, searched]
    rfl

theorem plan_fails_iff : (plan d c).Fails ↔ (readInputs d c.settings).Fails ∨ ∃ inputs,
    (readInputs d c.settings).run.value = .ok inputs ∧
      ∃ e, discover d c inputs.schema = .error e := by
  unfold plan
  rw [Attempt.fails_bind]
  refine or_congr_right (exists_congr fun inputs => and_congr_right fun _ => ?_)
  rw [Attempt.fails_bind, Attempt.fails_lift]
  refine or_iff_left ?_
  -- Resource files that cannot be read are left out.
  rintro ⟨found, _, failed⟩
  exact Attempt.not_fails_of_gives rfl failed

-- What a scan cannot do without: the source of the constructors, the catalog, the schema if one is
-- named, the source tree, patterns that are well formed, and a resource file that no rule leaves out.
inductive Lacks (d : Disk) (c : Config) : Prop
  | config (absent : d.read? c.settings.configPath = none)
  | configSource {body : Body} {e : Failure} (present : d.read? c.settings.configPath = some body)
      (faulty : Go.SourceFile.ofBody c.settings.configPath body = .error e)
  | catalog {e : Failure}
      (faulty : (Catalog.Registry.ofFile c.settings.catalogPath
        (d.read? c.settings.catalogPath)).value = .error e)
  | schema {path : Path} {e : Failure} (named : c.settings.schema = some path)
      (faulty : Schema.ofFile (c.settings.underBase path) (d.read? (c.settings.underBase path))
        c.settings.provider = .error e)
  | root (absent : d.canonical? c.settings.sourceRoot = none)
  | pattern {text : String} (chosen : text ∈ c.settings.exclude ++ c.ignorePatterns)
      (faulty : Glob.read? Discovery.excludeRules text = none)
  | resource {schema : Schema} {root : Path} {globs : List Glob}
      (schemaRead : readSchema d c.settings = .ok schema)
      (found : d.canonical? c.settings.sourceRoot = some root)
      (patterns : Discovery.globsOf (c.settings.exclude ++ c.ignorePatterns) = .ok globs)
      (none_left : ∀ f ∈ Discovery.candidates d root c.settings.filter,
        (f.skipReason? (selectionOf c schema) globs).isSome = true)

theorem plan_fails : (plan d c).Fails ↔ Lacks d c := by
  rw [plan_fails_iff]
  constructor
  · rintro (failed | ⟨inputs, read, failed⟩)
    · rcases readInputs_fails.mp failed with index | ⟨e, faulty⟩ | ⟨e, faulty⟩
      · rcases readIndex_fails.mp index with absent | ⟨body, e, present, faulty⟩
        · exact .config absent
        · exact .configSource present faulty
      · exact .catalog faulty
      · obtain ⟨path, named, faulty⟩ := readSchema_error.mp faulty
        exact .schema named faulty
    · rcases discover_error.mp failed with absent | ⟨root, found, unread | ⟨globs, patterns, none_left⟩⟩
      · exact .root absent
      · obtain ⟨text, chosen, faulty⟩ := Discovery.globsOf_error.mp unread
        exact .pattern chosen faulty
      · exact .resource (readInputs_schema read) found patterns none_left
  · intro lacks
    rcases (readInputs d c.settings).fails_or_gives with failed | ⟨inputs, read⟩
    · exact .inl failed
    · cases lacks with
      | config absent => exact .inl (readInputs_fails.mpr (.inl (readIndex_fails.mpr (.inl absent))))
      | configSource present faulty =>
        exact .inl (readInputs_fails.mpr (.inl (readIndex_fails.mpr (.inr ⟨_, _, present, faulty⟩))))
      | catalog faulty => exact .inl (readInputs_fails.mpr (.inr (.inl ⟨_, faulty⟩)))
      | schema named faulty =>
        exact .inl (readInputs_fails.mpr (.inr (.inr ⟨_, readSchema_error.mpr ⟨_, named, faulty⟩⟩)))
      | root absent => exact .inr ⟨inputs, read, discover_error.mpr (.inl absent)⟩
      | pattern chosen faulty =>
        refine .inr ⟨inputs, read, discover_error.mpr ?_⟩
        have unread := Discovery.globsOf_error.mpr ⟨_, chosen, faulty⟩
        cases d.canonical? c.settings.sourceRoot with
        | none => exact .inl rfl
        | some root => exact .inr ⟨root, rfl, .inl unread⟩
      | resource schemaRead found patterns none_left =>
        cases (readInputs_schema read).symm.trans schemaRead
        exact .inr ⟨inputs, read, discover_error.mpr (.inr ⟨_, found, .inr ⟨_, patterns, none_left⟩⟩)⟩

end Scan

end CallAtlas.Run
