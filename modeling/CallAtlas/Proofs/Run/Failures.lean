import CallAtlas.Proofs.Files.Growth
import CallAtlas.Proofs.Run.Pages
import CallAtlas.Proofs.Run.Planning
import CallAtlas.Run.Conversion

namespace CallAtlas

open Publishing

namespace Publishing

variable {own : Path → Prop} {root : Path} {d d' d'' : Disk}

-- The files as they are after some of one's own have been written.
def Written (own : Path → Prop) (d d' : Disk) : Prop :=
  ∃ files, (∀ file ∈ files, own file.1) ∧ d.writeAll files = some d'

theorem Written.refl (own : Path → Prop) (d : Disk) : Written own d d := ⟨[], nofun, rfl⟩

theorem Written.trans (first : Written own d d') (second : Written own d' d'') :
    Written own d d'' := by
  obtain ⟨early, early_own, early_wrote⟩ := first
  obtain ⟨late, late_own, late_wrote⟩ := second
  refine ⟨early ++ late, ?_, ?_⟩
  · intro file member
    rcases List.mem_append.mp member with one | other
    · exact early_own file one
    · exact late_own file other
  · rw [Disk.writeAll_append, early_wrote]
    exact late_wrote

-- One of the files could not be written after others had been.
def Stopped (own : Path → Prop) (d d' : Disk) : Prop :=
  Written own d d' ∧ ∃ path text, own path ∧ d'.write path text = none

theorem Stopped.after (first : Written own d d') (second : Stopped own d' d'') :
    Stopped own d d'' :=
  ⟨first.trans second.1, second.2⟩

-- Work that does nothing to the files but write some of its own, and fails only if it cannot write
-- one of them.
structure Writes (own : Path → Prop) (m : Publishing α) : Prop where
  done : ∀ {d d' a}, outcome m d = (.ok a, d') → Written own d d'
  failed : ∀ {d d' e}, outcome m d = (.error e, d') → e = .io ∧ Stopped own d d'

theorem Writes.pure (a : α) : Writes own (Pure.pure a : Publishing α) where
  done ran := by
    cases ran
    exact .refl own _
  failed ran := by cases ran

theorem Writes.bind {m : Publishing α} {f : α → Publishing β} (first : Writes own m)
    (second : ∀ a, Writes own (f a)) : Writes own (m >>= f) where
  done ran := by
    obtain ⟨a, middle, early, late⟩ := outcome_bind ran
    exact (first.done early).trans ((second a).done late)
  failed ran := by
    rcases outcome_bind_error ran with early | ⟨a, middle, early, late⟩
    · exact first.failed early
    · obtain ⟨fault, stopped⟩ := (second a).failed late
      exact ⟨fault, stopped.after (first.done early)⟩

theorem Writes.lift (n : Noted α) {f : α → Publishing β} (second : Writes own (f n.value)) :
    Writes own ((liftM n : Publishing α) >>= f) where
  done {d d' b} ran := by
    rw [outcome_bind_ok (outcome_lift n d)] at ran
    exact second.done ran
  failed {d d' e} ran := by
    rw [outcome_bind_ok (outcome_lift n d)] at ran
    exact second.failed ran

theorem Writes.reading (f : Disk → Noted α) :
    Writes own (Publishing.reading fun disk => (liftM (f disk) : Attempt α)) where
  done ran := by
    obtain ⟨_, rfl⟩ := outcome_reading.mp ran
    exact .refl own _
  failed ran := by
    obtain ⟨failed, _⟩ := outcome_reading_error.mp ran
    cases failed

theorem Writes.write {path : Path} (mine : own path) (text : String) :
    Writes own (Publishing.write path text) where
  done {d d' a} ran := by
    have wrote : d.write path text = some d' := outcome_write.mp ran
    refine ⟨[(path, text)], ?_, ?_⟩
    · intro file member
      cases List.mem_singleton.mp member
      exact mine
    · simp [Disk.writeAll, wrote]
  failed ran := by
    obtain ⟨refused, fault, rfl⟩ := outcome_write_error.mp ran
    exact ⟨fault, .refl own _, path, text, mine, refused⟩

theorem Writes.foldlM {f : β → α → Publishing β} (each : ∀ b a, Writes own (f b a))
    (as : List α) (b : β) : Writes own (as.foldlM f b) := by
  induction as generalizing b with
  | nil => exact .pure b
  | cons a rest ih =>
    rw [List.foldlM_cons]
    exact (each b a).bind ih

-- The directory could not be made, and directories on the way to it are all that is new, or a file
-- could not be written.
def Refused (root : Path) (own : Path → Prop) (d d' : Disk) : Prop :=
  (d.makeDirectories root = .error d' ∧ Disk.Grown (fun _ => false) d d') ∨
    ∃ opened, d.makeDirectories root = .ok opened ∧ Stopped own opened d'

theorem refused_of_error {m : Unit → Publishing α} (writes : ∀ u, Writes own (m u)) {e : Failure}
    (ran : outcome (makeDirectories root >>= m) d = (.error e, d')) :
    e = .io ∧ Refused root own d d' := by
  rcases outcome_bind_error ran with failed | ⟨u, opened, made, ran⟩
  · obtain ⟨refused, fault⟩ := outcome_change_error.mp failed
    exact ⟨fault, .inl ⟨refused, Disk.makeAlong_grown _ (.inr refused)⟩⟩
  · obtain ⟨fault, stopped⟩ := (writes u).failed ran
    exact ⟨fault, .inr ⟨opened, outcome_makeDirectories.mp made, stopped⟩⟩

-- A run that reads first and then writes.
theorem failed_after_reading {read : Disk → Attempt α} {m : α → Unit → Publishing β} {e : Failure}
    (writes : ∀ a u, Writes own (m a u))
    (ran : outcome (Publishing.reading read >>= fun a => makeDirectories root >>= m a) d =
      (.error e, d')) :
    ((read d).Fails ∧ d' = d) ∨ (¬ (read d).Fails ∧ e = .io ∧ Refused root own d d') := by
  rcases outcome_bind_error ran with failed | ⟨a, start, given, ran⟩
  · obtain ⟨fault, same⟩ := outcome_reading_error.mp failed
    exact .inl ⟨⟨e, fault⟩, same.symm⟩
  · obtain ⟨gives, rfl⟩ := outcome_reading.mp given
    exact .inr ⟨Attempt.not_fails_of_gives gives, refused_of_error (writes a) ran⟩

theorem fails_without_change {read : Disk → Attempt α} {f : α → Publishing β}
    (fails : (read d).Fails) : ∃ e, outcome (Publishing.reading read >>= f) d = (.error e, d) := by
  obtain ⟨e, failed⟩ := fails
  exact ⟨e, outcome_bind_failed (outcome_reading_error.mpr ⟨failed, rfl⟩)⟩

end Publishing

namespace Run

-- The files of a run.
inductive Owns (s : Settings) : Path → Prop
  | document (resource : String) : Owns s (s.documentPath resource)
  | skipList : Owns s (s.outputRoot.join Scan.skipListName)

namespace Scan

theorem writePage_writes (a : Analyzer) (s : Settings) (done : Scan.Written) (file : Go.SourceFile) :
    Writes (Owns s) (writePage a s done file) := by
  refine .lift _ ?_
  have answered : Sdk.Resolving.answer (page a s file) done.state =
      ((page a s file).run done.state).value.1 := rfl
  cases given : ((page a s file).run done.state).value with
  | mk result state =>
    rw [given] at answered
    cases result with
    | ok p =>
      have mine : Owns s p.target := (page_exact answered).2.1 ▸ .document _
      exact (Writes.write mine _).bind fun _ => .pure _
    | error f => exact .pure _

theorem publish_writes (s : Settings) (p : Plan) (_ : Unit) :
    Writes (Owns s) (do
      let w ← p.files.foldlM (writePage p.analyzer s) {}
      let skipped := SkippedFile.sort (p.skipped ++ w.skipped)
      Publishing.write (s.outputRoot.join skipListName) (skipList skipped)
      return summaryOf w skipped) :=
  (Writes.foldlM (writePage_writes p.analyzer s) p.files {}).bind fun _ =>
    (Writes.write .skipList _).bind fun _ => .pure _

end Scan

namespace Conversion

variable {d : Disk} {c : Config} {inputDir : Path}

theorem convert_writes (s : Settings) (schema : Schema) (done : Summary) (path : Path) :
    Writes (Owns s) (convert s schema done path) := by
  unfold convert
  split
  · exact .pure done
  · refine (Writes.reading _).bind fun document? => ?_
    split
    · exact .pure _
    · exact (Writes.write (.document _) _).bind fun _ => .pure _

-- What a conversion cannot do without: the schema if one is named, and a description.
inductive Lacks (d : Disk) (c : Config) (inputDir : Path) : Prop
  | schema {path : Path} {e : Failure} (named : c.settings.schema = some path)
      (faulty : Schema.ofFile (c.settings.underBase path) (d.read? (c.settings.underBase path))
        c.settings.provider = .error e)
  | description (none : Discovery.descriptions d inputDir = [])

theorem discover_error :
    (∃ e, discover d inputDir = .error e) ↔ Discovery.descriptions d inputDir = [] := by
  unfold discover
  cases Discovery.descriptions d inputDir <;> simp

theorem prepare_fails : (prepare d c inputDir).Fails ↔ Lacks d c inputDir := by
  have reasons : (prepare d c inputDir).Fails ↔
      (∃ e, readSchema d c.settings = .error e) ∨ ∃ e, discover d inputDir = .error e := by
    unfold prepare
    rw [← Attempt.fails_lift]
    refine Attempt.fails_bind_either fun schema => ?_
    rw [Attempt.fails_bind, Attempt.fails_lift]
    refine or_iff_left ?_
    rintro ⟨paths, _, failed⟩
    exact Attempt.not_fails_of_gives rfl failed
  rw [reasons, discover_error]
  constructor
  · rintro (⟨e, faulty⟩ | none)
    · obtain ⟨path, named, faulty⟩ := readSchema_error.mp faulty
      exact .schema named faulty
    · exact .description none
  · intro lacks
    cases lacks with
    | schema named faulty => exact .inl ⟨_, readSchema_error.mpr ⟨_, named, faulty⟩⟩
    | description none => exact .inr none

end Conversion

-- A run that lacks an input fails and leaves the files as they are. One that lacks none fails only
-- when the directory of its documents cannot be made, or a file in it cannot be written.
theorem failed_run_changes_nothing (c : Config) (inputDir : Path) (d : Disk) :
    (Scan.Lacks d c → ∃ e, outcome (Scan.run c) d = (.error e, d)) ∧
    (∀ e d', outcome (Scan.run c) d = (.error e, d') →
      (Scan.Lacks d c ∧ d' = d) ∨
        (¬ Scan.Lacks d c ∧ e = .io ∧ Refused c.settings.outputRoot (Owns c.settings) d d')) ∧
    (Conversion.Lacks d c inputDir → ∃ e, outcome (Conversion.run c inputDir) d = (.error e, d)) ∧
    (∀ e d', outcome (Conversion.run c inputDir) d = (.error e, d') →
      (Conversion.Lacks d c inputDir ∧ d' = d) ∨
        (¬ Conversion.Lacks d c inputDir ∧ e = .io ∧ Refused c.settings.outputRoot (Owns c.settings) d d')) := by
  refine ⟨?_, ?_, ?_, ?_⟩
  · intro lacks
    exact fails_without_change (Scan.plan_fails.mpr lacks)
  · intro e d' ran
    rw [← Scan.plan_fails]
    exact failed_after_reading (Scan.publish_writes c.settings) ran
  · intro lacks
    exact fails_without_change (Conversion.prepare_fails.mpr lacks)
  · intro e d' ran
    have writes : ∀ (given : Schema × List Path) (_ : Unit), Writes (Owns c.settings)
        (given.2.foldlM (Conversion.convert c.settings given.1) {}) :=
      fun given _ => .foldlM (Conversion.convert_writes c.settings given.1) given.2 {}
    rw [← Conversion.prepare_fails]
    exact failed_after_reading writes ran

-- The catalog and the schema break off, and the documents of an earlier run are there.
def stale : Disk where
  entries :=
    [(["s"], .dir), (["s", "resource_vpc.go"], .file (.text "package s\n")),
     (["c.go"], .file (.text "package c\n")), (["e.json"], .file (.text "\x7b\"vpc\": ")),
     (["types.json"], .file (.text "[")), (["in"], .dir), (["in", "vpc.yaml"], .file (.text "paths:\n")),
     (["api"], .dir), (["api", "resource_vpc.yaml"], .file (.text "paths: \x7b\x7d\n")),
     (["api", "skip_files.txt"], .file (.text ""))]

def staleConfig : Config where
  settings :=
    { basePath := ⟨"/"⟩, sourceDir := ⟨"s"⟩, configFile := ⟨"c.go"⟩, catalogFile := ⟨"e.json"⟩
      schema := some ⟨"types.json"⟩ }

theorem failed_run_changes_nothing_stale :
    (∃ e, outcome (Scan.run staleConfig) stale = (.error e, stale)) ∧
      ∃ e, outcome (Conversion.run staleConfig ⟨"/in"⟩) stale = (.error e, stale) := by
  obtain ⟨scan, _, conversion, _⟩ := failed_run_changes_nothing staleConfig ⟨"/in"⟩ stale
  have catalog : (Catalog.Registry.ofFile ⟨"/e.json"⟩ (stale.read? ⟨"/e.json"⟩)).value.isOk = false := by
    decide +kernel
  have types : (Schema.ofFile ⟨"/types.json"⟩ (stale.read? ⟨"/types.json"⟩) "huaweicloud").isOk = false := by
    decide +kernel
  obtain ⟨_, faultyCatalog⟩ := error_of_isOk catalog
  obtain ⟨_, faultyTypes⟩ := error_of_isOk types
  exact ⟨scan (.catalog faultyCatalog), conversion (.schema rfl faultyTypes)⟩

end Run

end CallAtlas
