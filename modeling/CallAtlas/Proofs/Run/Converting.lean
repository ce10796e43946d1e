import CallAtlas.Proofs.Run.Repeating
import CallAtlas.Run.Conversion

namespace CallAtlas

open CallAtlas.Text

namespace Run.Conversion

open Publishing

variable {c : Config} {s : Settings} {schema : Schema} {inputDir path : Path} {d d' base : Disk}
  {done summary : Summary} {paths : List Path} {own : Place → Bool}

-- The file that a description becomes.
def converted? (s : Settings) (schema : Schema) (d : Disk) (path : Path) : Option (Path × String) :=
  path.fileStem?.bind fun resource =>
    (documentOf s schema path resource d).value.map fun document =>
      (s.documentPath resource, document.render s.format)

-- The summary after one more path.
def counted (s : Settings) (schema : Schema) (d : Disk) (done : Summary) (path : Path) : Summary :=
  match converted? s schema d path with
  | some file => { done with documents := done.documents ++ [file.1] }
  | none => if path.fileStem?.isSome then { done with skipped := done.skipped + 1 } else done

theorem converted?_congr (same : d'.read? path = d.read? path) :
    converted? s schema d' path = converted? s schema d path := by
  have read : readDescription d' path = readDescription d path := by
    unfold readDescription
    rw [same]
  unfold converted? documentOf
  rw [read]

theorem counted_congr (same : d'.read? path = d.read? path) :
    counted s schema d' done path = counted s schema d done path := by
  unfold counted
  rw [converted?_congr same]

theorem convert_exact {next : Summary} : outcome (convert s schema done path) d = (.ok next, d') ↔
    d.writeAll (converted? s schema d path).toList = some d' ∧ next = counted s schema d done path := by
  have nothing : ∀ result : Summary,
      outcome (pure result : Publishing Summary) d = (.ok next, d') ↔ d = d' ∧ next = result := by
    intro result
    change (Except.ok result, d) = _ ↔ _
    rw [Prod.mk.injEq, Except.ok.injEq, and_comm, eq_comm (a := result)]
  unfold convert counted converted?
  cases path.fileStem? with
  | none => exact (nothing done).trans (and_congr_left' (by simp [Disk.writeAll]))
  | some resource =>
    have read : outcome (Publishing.reading fun disk => liftM (documentOf s schema path resource disk)) d =
        (.ok (documentOf s schema path resource d).value, d) := rfl
    dsimp only
    rw [outcome_bind_ok read, Option.bind_some]
    generalize (documentOf s schema path resource d).value = document?
    cases document? with
    | none => exact (nothing _).trans (and_congr_left' (by simp [Disk.writeAll]))
    | some document =>
      dsimp only [Option.map_some]
      -- Neither where the document is written nor its text matters.
      generalize s.documentPath resource = target
      generalize document.render s.format = text
      have one : d.writeAll [(target, text)] = d.write target text := by simp [Disk.writeAll]
      rw [Option.toList_some, one]
      constructor
      · intro ran
        obtain ⟨_, middle, wrote, ran⟩ := outcome_bind ran
        cases ran
        exact ⟨outcome_write.mp wrote, rfl⟩
      · rintro ⟨wrote, rfl⟩
        rw [outcome_bind_ok (outcome_write.mpr wrote)]
        rfl

-- What has been converted stays in the summary, under the names of documents.
theorem converts_documents (ran : outcome (paths.foldlM (convert s schema) done) d = (.ok summary, d')) :
    ∃ more, summary.documents = done.documents ++ more ∧ ∀ target ∈ more, ∃ resource,
      target = s.documentPath resource := by
  induction paths generalizing done d with
  | nil =>
    cases ran
    exact ⟨[], (List.append_nil _).symm, nofun⟩
  | cons path rest ih =>
    rw [List.foldlM_cons] at ran
    obtain ⟨next, middle, first, further⟩ := outcome_bind ran
    obtain ⟨more, documents, named⟩ := ih further
    obtain ⟨_, rfl⟩ := convert_exact.mp first
    have here : ∃ one, (counted s schema d done path).documents = done.documents ++ one ∧
        ∀ target ∈ one, ∃ resource, target = s.documentPath resource := by
      unfold counted
      cases made : converted? s schema d path with
      | none =>
        refine ⟨[], ?_, nofun⟩
        dsimp only
        split <;> exact (List.append_nil _).symm
      | some file =>
        obtain ⟨resource, _, made⟩ := Option.bind_eq_some_iff.mp made
        obtain ⟨document, _, rfl⟩ := Option.map_eq_some_iff.mp made
        exact ⟨_, rfl, by simp⟩
    obtain ⟨one, early, named'⟩ := here
    refine ⟨one ++ more, ?_, List.forall_mem_append.mpr ⟨named', named⟩⟩
    rw [documents, early, List.append_assoc]

theorem converts_tree (ran : outcome (paths.foldlM (convert s schema) done) d = (.ok summary, d')) :
    Disk.SameTree d d' := by
  induction paths generalizing done d with
  | nil =>
    cases ran
    exact ⟨rfl, fun _ => rfl⟩
  | cons path rest ih =>
    rw [List.foldlM_cons] at ran
    obtain ⟨next, middle, first, further⟩ := outcome_bind ran
    obtain ⟨wrote, _⟩ := convert_exact.mp first
    exact (Disk.writeAll_tree wrote).trans (ih further)

-- Each path counts once.
theorem converts_counted (ran : outcome (paths.foldlM (convert s schema) done) d = (.ok summary, d'))
    (named : ∀ path ∈ paths, path.fileStem?.isSome = true) :
    summary.documents.length + summary.skipped = done.documents.length + done.skipped + paths.length := by
  induction paths generalizing done d with
  | nil =>
    cases ran
    rfl
  | cons path rest ih =>
    obtain ⟨stem, others⟩ := List.forall_mem_cons.mp named
    rw [List.foldlM_cons] at ran
    obtain ⟨next, middle, first, further⟩ := outcome_bind ran
    obtain ⟨_, rfl⟩ := convert_exact.mp first
    have one : (counted s schema d done path).documents.length + (counted s schema d done path).skipped =
        done.documents.length + done.skipped + 1 := by
      unfold counted
      cases converted? s schema d path with
      | none => simp only [stem, if_true]; omega
      | some file => simp only [List.length_append, List.length_singleton]; omega
    rw [ih further others, one, List.length_cons]
    omega

-- The disk on which the descriptions are read, and what has become of it: only files of one's own have
-- changed, and no description is one of them.
structure Reading (own : Place → Bool) (base d : Disk) (paths : List Path) : Prop where
  tree : d.Tree
  grown : Disk.Grown own base d
  same : Disk.SameTree base d
  apart : ∀ path ∈ paths, ∀ place, base.locate? path = some place → own place = false

theorem Reading.read? (reading : Reading own base d paths) (member : path ∈ paths) :
    d.read? path = base.read? path :=
  reading.grown.read?_same reading.same (reading.apart path member)

theorem Reading.next {rest : List Path} (reading : Reading own base d (path :: rest))
    (wrote : d.writeAll (converted? s schema base path).toList = some d')
    (mine : ∀ file ∈ converted? s schema base path, ∀ place, base.locate? file.1 = some place →
      own place = true) : Reading own base d' rest := by
  have places : ∀ file ∈ (converted? s schema base path).toList, ∀ place,
      d.locate? file.1 = some place → own place = true := by
    intro file member place located
    rw [reading.same.locate?] at located
    exact mine file (Option.mem_toList.mp member) place located
  obtain ⟨tree, grown⟩ := reading.tree.writeAll wrote places
  exact ⟨tree, reading.grown.trans grown, reading.same.trans (Disk.writeAll_tree wrote),
    fun path inside => reading.apart path (List.mem_cons_of_mem _ inside)⟩

-- The documents of the summary are those of the descriptions.
theorem counted_documents (s : Settings) (schema : Schema) (d : Disk) (paths : List Path) (done : Summary) :
    (paths.foldl (counted s schema d) done).documents =
      done.documents ++ (paths.filterMap (converted? s schema d)).map Prod.fst := by
  induction paths generalizing done with
  | nil => exact (List.append_nil _).symm
  | cons path rest ih =>
    rw [List.foldl_cons, ih]
    unfold counted
    cases made : converted? s schema d path with
    | none =>
      rw [List.filterMap_cons_none made]
      dsimp only
      split <;> rfl
    | some file =>
      rw [List.filterMap_cons_some made, List.map_cons, List.append_assoc]
      rfl

theorem converted_cons (s : Settings) (schema : Schema) (d : Disk) (path : Path) (rest : List Path) :
    (path :: rest).filterMap (converted? s schema d) =
      (converted? s schema d path).toList ++ rest.filterMap (converted? s schema d) := by
  rw [List.filterMap_cons]
  cases converted? s schema d path <;> rfl

-- As long as no description is written to, the work is what it is on the disk as it was.
theorem converts_exact (reading : Reading own base d paths)
    (mine : ∀ target ∈ summary.documents, ∀ place, base.locate? target = some place → own place = true)
    (ran : outcome (paths.foldlM (convert s schema) done) d = (.ok summary, d')) :
    d.writeAll (paths.filterMap (converted? s schema base)) = some d' ∧
      summary = paths.foldl (counted s schema base) done := by
  induction paths generalizing done d with
  | nil =>
    cases ran
    exact ⟨rfl, rfl⟩
  | cons path rest ih =>
    rw [List.foldlM_cons] at ran
    obtain ⟨next, middle, first, further⟩ := outcome_bind ran
    have same := reading.read? List.mem_cons_self
    obtain ⟨wrote, rfl⟩ := convert_exact.mp first
    rw [converted?_congr same] at wrote
    rw [counted_congr same] at further
    obtain ⟨more, documents, _⟩ := converts_documents further
    have written : ∀ file ∈ converted? s schema base path, ∀ place, base.locate? file.1 = some place →
        own place = true := by
      intro file made
      refine mine file.1 ?_
      have listed : file.1 ∈ (counted s schema base done path).documents := by
        rw [counted, Option.mem_def.mp made]
        exact List.mem_append_right _ (List.mem_singleton.mpr rfl)
      rw [documents]
      exact List.mem_append_left _ listed
    obtain ⟨wrote', counts⟩ := ih (reading.next wrote written) further
    refine ⟨?_, counts⟩
    rw [converted_cons, Disk.writeAll_append, wrote]
    exact wrote'

theorem converts_run (reading : Reading own base d paths)
    (mine : ∀ file ∈ paths.filterMap (converted? s schema base), ∀ place,
      base.locate? file.1 = some place → own place = true)
    (wrote : d.writeAll (paths.filterMap (converted? s schema base)) = some d') :
    outcome (paths.foldlM (convert s schema) done) d =
      (.ok (paths.foldl (counted s schema base) done), d') := by
  induction paths generalizing done d with
  | nil =>
    cases wrote
    rfl
  | cons path rest ih =>
    rw [converted_cons, Disk.writeAll_append] at wrote
    obtain ⟨middle, early, late⟩ := Option.bind_eq_some_iff.mp wrote
    have same := reading.read? List.mem_cons_self
    have first : outcome (convert s schema done path) d = (.ok (counted s schema base done path), middle) := by
      refine convert_exact.mpr ⟨?_, (counted_congr same).symm⟩
      rw [converted?_congr same]
      exact early
    rw [converted_cons] at mine
    obtain ⟨here, others⟩ := List.forall_mem_append.mp mine
    rw [List.foldlM_cons, outcome_bind_ok first]
    exact ih (reading.next early fun file made => here file (Option.mem_toList.mpr made)) others late

theorem discover_exact : discover d inputDir = .ok paths ↔
    Discovery.descriptions d inputDir = paths ∧ paths ≠ [] := by
  unfold discover
  split
  · rename_i none
    rw [none]
    exact ⟨nofun, fun ⟨empty, filled⟩ => absurd empty.symm filled⟩
  · rename_i some
    rw [Except.ok.injEq]
    exact ⟨fun same => ⟨same, same ▸ some⟩, And.left⟩

theorem prepare_exact : (prepare d c inputDir).run.value = .ok (schema, paths) ↔
    readSchema d c.settings = .ok schema ∧ Discovery.descriptions d inputDir = paths ∧ paths ≠ [] := by
  rw [← discover_exact]
  unfold prepare
  constructor
  · intro prepared
    obtain ⟨schema', read, prepared⟩ := Attempt.run_bind prepared
    obtain ⟨paths', found, prepared⟩ := Attempt.run_bind prepared
    cases prepared
    exact ⟨read, found⟩
  · rintro ⟨read, found⟩
    rw [read, found]
    rfl

theorem run_iff : outcome (run c inputDir) d = (.ok summary, d') ↔
    ∃ schema opened, readSchema d c.settings = .ok schema ∧ Discovery.descriptions d inputDir ≠ [] ∧
      d.makeDirectories c.settings.outputRoot = .ok opened ∧
      outcome ((Discovery.descriptions d inputDir).foldlM (convert c.settings schema) {}) opened =
        (.ok summary, d') := by
  unfold run
  constructor
  · intro ran
    obtain ⟨⟨schema, paths⟩, start, read, ran⟩ := outcome_bind ran
    obtain ⟨prepared, rfl⟩ := outcome_reading.mp read
    obtain ⟨_, opened, made, ran⟩ := outcome_bind ran
    obtain ⟨known, rfl, filled⟩ := prepare_exact.mp prepared
    exact ⟨schema, opened, known, filled, outcome_makeDirectories.mp made, ran⟩
  · rintro ⟨schema, opened, known, filled, made, ran⟩
    have prepared := @prepare_exact c schema inputDir d (Discovery.descriptions d inputDir)
    rw [outcome_bind_ok (outcome_reading.mpr ⟨prepared.mpr ⟨known, rfl, filled⟩, rfl⟩),
      outcome_bind_ok (outcome_makeDirectories.mpr made)]
    exact ran

-- Every description counts, as a document or as one that was skipped.
theorem run_counted (ran : outcome (run c inputDir) d = (.ok summary, d')) :
    summary.documents.length + summary.skipped = (Discovery.descriptions d inputDir).length := by
  obtain ⟨schema, opened, _, _, _, ran⟩ := run_iff.mp ran
  have counts := converts_counted ran ?_
  · simpa using counts
  · intro path member
    obtain ⟨place, _, named⟩ := Discovery.mem_descriptions member
    unfold Discovery.description? Path.extension? at named
    unfold Path.fileStem?
    cases name : path.fileName? with
    | none =>
      rw [name] at named
      cases named
    | some n => rfl

-- The place of a document.
def documentAt (d : Disk) (summary : Summary) (place : Place) : Bool :=
  summary.documents.any fun target => d.locate? target == some place

theorem documentAt_exact {place : Place} : documentAt d summary place = true ↔
    ∃ target ∈ summary.documents, d.locate? target = some place := by
  simp [documentAt]

theorem documentAt_named (documents : ∀ target ∈ summary.documents, ∃ resource,
      target = s.documentPath resource) :
    ∀ place n, documentAt d summary place = true → place.getLast? = some n →
      Scan.isOutputName n = true := by
  intro place n mine last
  obtain ⟨target, member, located⟩ := documentAt_exact.mp mine
  obtain ⟨resource, rfl⟩ := documents target member
  obtain ⟨parts, lead, ends⟩ := Scan.documentPath_end s resource
  rw [Disk.locate?_last ends located, Option.some.injEq] at last
  rw [← last, ← String.append_assoc]
  exact Scan.isOutputName_format lead s.format

theorem readSchema_kept {own : Place → Bool} (grown : Disk.Grown own d d')
    (other : ∀ path, c.settings.schema = some path → ∀ place,
      d'.locate? (c.settings.underBase path) = some place → own place = false)
    (known : readSchema d c.settings = .ok schema) : readSchema d' c.settings = .ok schema := by
  unfold readSchema at known ⊢
  cases named : c.settings.schema with
  | none =>
    rw [named] at known
    exact known
  | some path =>
    rw [named] at known
    simp only [Option.map_some] at known ⊢
    have same : d'.read? (c.settings.underBase path) = d.read? (c.settings.underBase path) := by
      refine grown.read?_eq (other path named) fun _ => ?_
      cases read : d.read? (c.settings.underBase path) with
      | none =>
        rw [read] at known
        cases known
      | some body => rfl
    rw [same]
    exact known

-- What a conversion that overwrites no description leaves, and what it has written.
structure Leaves (c : Config) (inputDir : Path) (schema : Schema) (d opened d' : Disk) (summary : Summary) :
    Prop where
  there : (d.at? inputDir).isSome = true
  reading : Reading (documentAt d' summary) opened d' (Discovery.descriptions d inputDir)
  grown : Disk.Grown (documentAt d' summary) d d'
  unruled : Disk.Unruled (documentAt d' summary) d d'
  mine : ∀ file ∈ (Discovery.descriptions d inputDir).filterMap (converted? c.settings schema opened),
    ∀ place, opened.locate? file.1 = some place → documentAt d' summary place = true
  wrote : opened.writeAll
    ((Discovery.descriptions d inputDir).filterMap (converted? c.settings schema opened)) = some d'
  counts : summary = (Discovery.descriptions d inputDir).foldl (counted c.settings schema opened) {}

-- A description is read where it was met, so none is read from a place of one's own.
theorem descriptions_apart (early : Disk.Grown own d base) (unruled : Disk.Unruled own d base)
    (proper : d.Proper) (ready : base.Proper) (there : (d.at? inputDir).isSome = true)
    (unwritten : ∀ met ∈ d.walk inputDir, own met.2 = true → Discovery.description? met = none) :
    ∀ path ∈ Discovery.descriptions d inputDir, ∀ place, base.locate? path = some place →
      own place = false := by
  intro path member place located
  obtain ⟨at_, met, named⟩ := Discovery.mem_descriptions member
  have again : (path, at_) ∈ base.walk inputDir := early.walk_met unruled proper there met
  rw [Disk.walk_located ready again located, Bool.eq_false_iff]
  intro mine
  rw [unwritten (path, at_) met mine] at named
  cases named

theorem converts_leaves {opened : Disk} (tree : d.Tree)
    (filled : Discovery.descriptions d inputDir ≠ [])
    (made : d.makeDirectories c.settings.outputRoot = .ok opened)
    (ran : outcome ((Discovery.descriptions d inputDir).foldlM (convert c.settings schema) {}) opened =
      (.ok summary, d'))
    (unwritten : ∀ met ∈ d.walk inputDir, documentAt d' summary met.2 = true →
      Discovery.description? met = none)
    (unversioned : ∀ dir, opened.hasRepository dir = d.hasRepository dir) :
    Leaves c inputDir schema d opened d' summary := by
  obtain ⟨path, member⟩ := List.exists_mem_of_ne_nil _ filled
  obtain ⟨_, met, _⟩ := Discovery.mem_descriptions member
  have there := Disk.walk_there met
  obtain ⟨more, documents, titled⟩ := converts_documents ran
  have named := @documentAt_named c.settings d' summary fun target listed =>
    titled target (by rw [documents] at listed; exact listed)
  have ready : opened.Tree := tree.makeDirectories made
  have same : Disk.SameTree opened d' := converts_tree ran
  have early : Disk.Grown (documentAt d' summary) d opened := Disk.makeAlong_grown _ (.inl made)
  have apart := descriptions_apart early ⟨Scan.rules_named named, unversioned⟩ tree.toProper ready.toProper
    there unwritten
  have mine : ∀ target ∈ summary.documents, ∀ place, opened.locate? target = some place →
      documentAt d' summary place = true := by
    intro target listed place located
    exact documentAt_exact.mpr ⟨target, listed, (same.locate? target).trans located⟩
  obtain ⟨wrote, counts⟩ := converts_exact
    ⟨ready, .refl _ opened, ⟨rfl, fun _ => rfl⟩, apart⟩ mine ran
  have written : ∀ file ∈ (Discovery.descriptions d inputDir).filterMap (converted? c.settings schema opened),
      ∀ place, opened.locate? file.1 = some place → documentAt d' summary place = true := by
    intro file inside
    refine mine file.1 ?_
    rw [counts, counted_documents]
    exact List.mem_append_right _ (List.mem_map_of_mem inside)
  obtain ⟨tree', grew⟩ := ready.writeAll wrote written
  have late := Scan.unruled_named same grew named
  exact ⟨there, ⟨tree', grew, same, apart⟩, early.trans grew,
    ⟨late.rules, fun dir => (late.repositories dir).trans (unversioned dir)⟩, written, wrote, counts⟩

-- A conversion that overwrites no description and no schema has an equal summary the second time exactly
-- if none of its documents is met as a description, and then nothing changes.
theorem convert_repeatable (tree : d.Tree) (ran : outcome (run c inputDir) d = (.ok summary, d'))
    (unwritten : ∀ met ∈ d.walk inputDir, documentAt d' summary met.2 = true →
      met.1.extension? ≠ some "yaml")
    (schemaless : ∀ path, c.settings.schema = some path → ∀ place,
      d'.locate? (c.settings.underBase path) = some place → documentAt d' summary place = false)
    (unversioned : ∀ dir, (Scan.opened d c.settings).hasRepository dir = d.hasRepository dir) :
    ((∃ d'', outcome (run c inputDir) d' = (.ok summary, d'')) ↔
      ∀ met ∈ d'.walk inputDir, documentAt d' summary met.2 = true → met.1.extension? ≠ some "yaml") ∧
    ((∀ met ∈ d'.walk inputDir, documentAt d' summary met.2 = true → met.1.extension? ≠ some "yaml") →
      outcome (run c inputDir) d' = (.ok summary, d')) := by
  obtain ⟨schema, opened, known, filled, made, converted⟩ := run_iff.mp ran
  rw [Scan.opened_eq made] at unversioned
  have described : ∀ met : Path × Place,
      met.1.extension? ≠ some "yaml" ↔ Discovery.description? met = none := by
    intro met
    simp [Discovery.description?]
  simp only [described] at unwritten ⊢
  have leaves := converts_leaves tree filled made converted unwritten unversioned
  have repeated : (∀ met ∈ d'.walk inputDir, documentAt d' summary met.2 = true →
      Discovery.description? met = none) → outcome (run c inputDir) d' = (.ok summary, d') := by
    intro unmet
    have same := Discovery.descriptions_kept leaves.grown leaves.unruled tree.toProper leaves.there unmet
    have ready : opened.Tree := tree.makeDirectories made
    have again := @converts_run c.settings schema d' d' opened {} _ _ leaves.reading leaves.mine
      (ready.writeAll_again leaves.wrote)
    rw [← leaves.counts] at again
    refine run_iff.mpr ⟨schema, d', readSchema_kept leaves.grown schemaless known, ?_,
      Disk.makeDirectories_again made leaves.reading.grown, ?_⟩
    · rw [same]
      exact filled
    · rw [same]
      exact again
  refine ⟨⟨?_, fun unmet => ⟨d', repeated unmet⟩⟩, repeated⟩
  rintro ⟨d'', again⟩
  refine (Discovery.descriptions_length leaves.grown leaves.unruled leaves.there unwritten).mp ?_
  rw [← run_counted again, ← run_counted ran]

def tracker : String :=
  "paths:\n  /t:\n    get:\n      operationId: List\n      x-ref-product: CTS\n      x-ref-api: GET /v3/t\n"

def trackerRead : Description where
  paths := ⟨[("/t", ⟨[("get", ⟨"List", "CTS", "GET /v3/t"⟩)]⟩)]⟩

theorem tracker_read : Description.ofYaml tracker = .ok trackerRead := ok_of_toOption (by decide +kernel)

def sole : Disk where
  entries := [(["in"], .dir), (["in", "a.yaml"], .file (.text tracker))]

def soleConfig (outputDir : Path) : Config where
  settings := { basePath := ⟨"/"⟩, outputDir, pendingUpgrade := [], companions := {} }

def soleOpened (outputDir : Path) : Disk := Scan.opened sole (soleConfig outputDir).settings

def soleFile (outputDir : Path) : Path × String :=
  ((soleConfig outputDir).settings.documentPath "a",
    (Document.ofDescription "a" trackerRead "huaweicloud" "latest").value.render .yaml)

-- The files after a conversion.
def soleLeft (outputDir : Path) : Disk :=
  ((soleOpened outputDir).writeAll [soleFile outputDir]).getD (soleOpened outputDir)

theorem sole_tree : sole.Tree := ⟨⟨by decide, by decide, by decide⟩, by decide, by decide⟩

theorem sole_converts {outputDir target : Path}
    (made : (sole.makeDirectories (soleConfig outputDir).settings.outputRoot).isOk = true)
    (read : (soleOpened outputDir).read? ⟨"/in/a.yaml"⟩ = some (.text tracker))
    (titled : (soleFile outputDir).1 = target)
    (wrote : ((soleOpened outputDir).writeAll [soleFile outputDir]).isSome = true) :
    outcome (run (soleConfig outputDir) ⟨"/in"⟩) sole = (.ok ⟨[target], 0⟩, soleLeft outputDir) := by
  obtain ⟨opened, made⟩ := ok_of_isOk made
  obtain ⟨d', wrote⟩ := Option.isSome_iff_exists.mp wrote
  have opens : soleOpened outputDir = opened := Scan.opened_eq made
  have left : soleLeft outputDir = d' := by rw [soleLeft, wrote, Option.getD_some]
  have met : (sole.walk ⟨"/in"⟩).filterMap Discovery.description? = [⟨"/in/a.yaml"⟩] := by decide +kernel
  have found : Discovery.descriptions sole ⟨"/in"⟩ = [⟨"/in/a.yaml"⟩] := by
    rw [Discovery.descriptions_eq, met, Path.sort, List.mergeSort_singleton]
  rw [opens] at read wrote
  have stem : (Path.mk "/in/a.yaml").fileStem? = some "a" := by decide +kernel
  have described : readDescription opened ⟨"/in/a.yaml"⟩ = .ok trackerRead := by
    rw [readDescription, read]
    exact tracker_read
  have converted : converted? (soleConfig outputDir).settings (.acceptAll "huaweicloud") opened ⟨"/in/a.yaml"⟩ =
      some (soleFile outputDir) := by
    rw [converted?, stem, Option.bind_some, documentOf, described]
    rfl
  have counts : counted (soleConfig outputDir).settings (.acceptAll "huaweicloud") opened {} ⟨"/in/a.yaml"⟩ =
      ⟨[target], 0⟩ := by
    rw [counted, converted, ← titled]
    rfl
  refine run_iff.mpr ⟨.acceptAll "huaweicloud", opened, rfl, ?_, made, ?_⟩
  · rw [found]
    exact List.cons_ne_nil _ _
  · have written : opened.writeAll (converted? (soleConfig outputDir).settings (.acceptAll "huaweicloud") opened
        ⟨"/in/a.yaml"⟩).toList = some d' := by rw [converted]; exact wrote
    rw [found, left, List.foldlM_cons, outcome_bind_ok (convert_exact.mpr ⟨written, rfl⟩), counts]
    rfl

theorem convert_repeatable_beside :
    outcome (run (soleConfig ⟨"out"⟩) ⟨"/in"⟩) sole = (.ok ⟨[⟨"/out/a.yaml"⟩], 0⟩, soleLeft ⟨"out"⟩) ∧
      outcome (run (soleConfig ⟨"out"⟩) ⟨"/in"⟩) (soleLeft ⟨"out"⟩) =
        (.ok ⟨[⟨"/out/a.yaml"⟩], 0⟩, soleLeft ⟨"out"⟩) := by
  have ran : outcome (run (soleConfig ⟨"out"⟩) ⟨"/in"⟩) sole =
      (.ok ⟨[⟨"/out/a.yaml"⟩], 0⟩, soleLeft ⟨"out"⟩) :=
    sole_converts (by decide +kernel) (by decide +kernel) (by decide +kernel) (by decide +kernel)
  refine ⟨ran, (convert_repeatable sole_tree ran (by decide +kernel) nofun ?_).2 (by decide +kernel)⟩
  intro dir
  obtain ⟨_, opened, _, _, made, _⟩ := run_iff.mp ran
  rw [Scan.opened_eq made]
  exact Disk.makeAlong_other made (by decide +kernel) dir

-- A document below the directory of the descriptions is a description for the next conversion.
theorem documents_converted :
    outcome (run (soleConfig ⟨"in/out"⟩) ⟨"/in"⟩) sole =
        (.ok ⟨[⟨"/in/out/a.yaml"⟩], 0⟩, soleLeft ⟨"in/out"⟩) ∧
      ∀ summary d', outcome (run (soleConfig ⟨"in/out"⟩) ⟨"/in"⟩) (soleLeft ⟨"in/out"⟩) = (.ok summary, d') →
        summary ≠ ⟨[⟨"/in/out/a.yaml"⟩], 0⟩ := by
  refine ⟨sole_converts (by decide +kernel) (by decide +kernel) (by decide +kernel) (by decide +kernel), ?_⟩
  rintro summary d' again rfl
  have counts := run_counted again
  rw [Discovery.descriptions_eq, Path.sort, List.length_mergeSort] at counts
  revert counts
  decide +kernel

end Run.Conversion

end CallAtlas
