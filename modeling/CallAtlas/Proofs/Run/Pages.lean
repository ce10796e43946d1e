import CallAtlas.Proofs.Files.Candidates
import CallAtlas.Proofs.Files.Writing
import CallAtlas.Proofs.Run.Outcomes
import CallAtlas.Proofs.Sdk.Resolving
import CallAtlas.Run.Scan

namespace CallAtlas

namespace Run.Scan

open Publishing Sdk.Resolving

def pagesFrom (a : Analyzer) (s : Settings) (state : Sdk.State) (files : List Go.SourceFile) : List Page :=
  (answer (files.mapM (page a s)) state).filterMap Except.toOption

def Page.text (s : Settings) (p : Page) : String := p.document.render s.format

def Page.written (s : Settings) (p : Page) : Path × String := (p.target, p.text s)

theorem pagesFrom_cons (a : Analyzer) (s : Settings) (state : Sdk.State) (file : Go.SourceFile)
    (rest : List Go.SourceFile) :
    pagesFrom a s state (file :: rest) =
      (answer (page a s file) state).toOption.toList ++
        pagesFrom a s (after (page a s file) state) rest := by
  unfold pagesFrom
  rw [answer_mapM_cons, List.filterMap_cons]
  cases answer (page a s file) state <;> rfl

-- The files whose comments contradict each other.
def conflictsFrom (a : Analyzer) (s : Settings) (state : Sdk.State) (files : List Go.SourceFile) :
    List SkippedFile :=
  SkippedFile.leftOut (answer (files.mapM (page a s)) state)

theorem conflictsFrom_cons (a : Analyzer) (s : Settings) (state : Sdk.State) (file : Go.SourceFile)
    (rest : List Go.SourceFile) :
    conflictsFrom a s state (file :: rest) =
      SkippedFile.leftOut [answer (page a s file) state] ++
        conflictsFrom a s (after (page a s file) state) rest := by
  unfold conflictsFrom
  rw [answer_mapM_cons]
  cases answer (page a s file) state <;> rfl

-- A step writes the page of its file, if it has one, and adds it to those written.
theorem writePage_exact {a : Analyzer} {s : Settings} {done next : Written} {file : Go.SourceFile}
    {d d' : Disk} (ran : outcome (writePage a s done file) d = (.ok next, d')) :
    next.pages = done.pages ++ (answer (page a s file) done.state).toOption.toList ∧
      next.skipped = done.skipped ++ SkippedFile.leftOut [answer (page a s file) done.state] ∧
      next.state = after (page a s file) done.state ∧
      d.writeAll ((answer (page a s file) done.state).toOption.toList.map (Page.written s)) = some d' := by
  unfold writePage at ran
  obtain ⟨⟨result, state⟩, middle, lifted, ran⟩ := outcome_bind ran
  simp only [outcome_lift, Prod.mk.injEq, Except.ok.injEq] at lifted
  obtain ⟨given, rfl⟩ := lifted
  have result_is : answer (page a s file) done.state = result := congrArg Prod.fst given
  have state_is : after (page a s file) done.state = state := congrArg Prod.snd given
  rw [result_is, state_is]
  cases result with
  | ok p =>
    obtain ⟨u, last, wrote, ran⟩ := outcome_bind ran
    cases ran
    refine ⟨rfl, (List.append_nil _).symm, rfl, ?_⟩
    have written : d.write p.target (p.document.render s.format) = some d' := outcome_write.mp wrote
    simp [Disk.writeAll, Page.written, Page.text, Except.toOption, written]
  | error f =>
    cases ran
    exact ⟨(List.append_nil _).symm, rfl, rfl, rfl⟩

theorem writePage_runs {a : Analyzer} {s : Settings} {done : Written} {file : Go.SourceFile}
    {d d' : Disk}
    (wrote : d.writeAll ((answer (page a s file) done.state).toOption.toList.map (Page.written s)) = some d') :
    ∃ next, outcome (writePage a s done file) d = (.ok next, d') := by
  unfold writePage
  rw [outcome_bind_ok (outcome_lift _ d)]
  have answered : answer (page a s file) done.state = ((page a s file).run done.state).value.1 := rfl
  cases given : ((page a s file).run done.state).value with
  | mk result state =>
    rw [given] at answered
    rw [answered] at wrote
    cases result with
    | ok p =>
      have written : d.write p.target (p.text s) = some d' := by
        simpa [Disk.writeAll, Page.written, Except.toOption] using wrote
      have step : outcome (Publishing.write p.target (p.text s)) d = (.ok (), d') :=
        outcome_write.mpr written
      exact ⟨_, outcome_bind_ok step⟩
    | error f =>
      cases wrote
      exact ⟨_, rfl⟩

theorem writePages_exact {a : Analyzer} {s : Settings} {done w : Written} {files : List Go.SourceFile}
    {d d' : Disk} (ran : outcome (files.foldlM (writePage a s) done) d = (.ok w, d')) :
    w.pages = done.pages ++ pagesFrom a s done.state files ∧
      w.skipped = done.skipped ++ conflictsFrom a s done.state files ∧
      d.writeAll ((pagesFrom a s done.state files).map (Page.written s)) = some d' := by
  induction files generalizing done d with
  | nil =>
    cases ran
    exact ⟨(List.append_nil _).symm, (List.append_nil _).symm, rfl⟩
  | cons file rest ih =>
    rw [List.foldlM_cons] at ran
    obtain ⟨next, middle, first, further⟩ := outcome_bind ran
    obtain ⟨pages, skipped, state, written⟩ := writePage_exact first
    obtain ⟨allPages, allSkipped, allWritten⟩ := ih further
    rw [state] at allPages allSkipped allWritten
    rw [pagesFrom_cons, conflictsFrom_cons]
    refine ⟨?_, ?_, ?_⟩
    · rw [allPages, pages, List.append_assoc]
    · rw [allSkipped, skipped, List.append_assoc]
    · rw [List.map_append]
      rw [Disk.writeAll_append, written]
      exact allWritten

theorem writePages_runs {a : Analyzer} {s : Settings} {done : Written} {files : List Go.SourceFile}
    {d d' : Disk}
    (wrote : d.writeAll ((pagesFrom a s done.state files).map (Page.written s)) = some d') :
    ∃ w, outcome (files.foldlM (writePage a s) done) d = (.ok w, d') := by
  induction files generalizing done d with
  | nil =>
    cases wrote
    exact ⟨done, rfl⟩
  | cons file rest ih =>
    rw [pagesFrom_cons, List.map_append, Disk.writeAll_append] at wrote
    obtain ⟨middle, early, late⟩ := Option.bind_eq_some_iff.mp wrote
    obtain ⟨next, first⟩ := writePage_runs early
    rw [← (writePage_exact first).2.2.1] at late
    rw [List.foldlM_cons, outcome_bind_ok first]
    exact ih late

theorem run_exact {c : Config} {summary : Summary} {d d' : Disk}
    (ran : outcome (run c) d = (.ok summary, d')) :
    ∃ p opened closed text, (plan d c).run.value = .ok p ∧
      d.makeDirectories c.settings.outputRoot = .ok opened ∧
      opened.writeAll ((pagesFrom p.analyzer c.settings {} p.files).map (Page.written c.settings)) =
        some closed ∧
      closed.write (c.settings.outputRoot.join skipListName) text = some d' ∧
      summary.documents = (pagesFrom p.analyzer c.settings {} p.files).map Page.target := by
  unfold run at ran
  obtain ⟨p, start, read, published⟩ := outcome_bind ran
  obtain ⟨planned, rfl⟩ := outcome_reading.mp read
  unfold publish at published
  obtain ⟨_, opened, made, published⟩ := outcome_bind published
  obtain ⟨w, closed, wrote, published⟩ := outcome_bind published
  obtain ⟨_, last, listed, published⟩ := outcome_bind published
  obtain ⟨pages, _, written⟩ := writePages_exact wrote
  cases published
  refine ⟨p, opened, closed, _, planned, outcome_makeDirectories.mp made, written, outcome_write.mp listed, ?_⟩
  simp only [summaryOf, pages, List.nil_append]

theorem run_succeeds {c : Config} {d opened closed : Disk} {p : Plan}
    (planned : (plan d c).run.value = .ok p)
    (made : d.makeDirectories c.settings.outputRoot = .ok opened)
    (wrote : opened.writeAll ((pagesFrom p.analyzer c.settings {} p.files).map (Page.written c.settings)) =
      some closed)
    (listed : (closed.write (c.settings.outputRoot.join skipListName) "").isSome = true) :
    ∃ summary d', outcome (run c) d = (.ok summary, d') := by
  obtain ⟨w, pages⟩ := @writePages_runs p.analyzer c.settings {} p.files opened closed wrote
  obtain ⟨d', last⟩ := Disk.write_any listed (skipList (SkippedFile.sort (p.skipped ++ w.skipped)))
  have read : outcome (reading fun disk => plan disk c) d = (.ok p, d) :=
    outcome_reading.mpr ⟨planned, rfl⟩
  have first : outcome (makeDirectories c.settings.outputRoot) d = (.ok (), opened) :=
    outcome_makeDirectories.mpr made
  have final : outcome (Publishing.write (c.settings.outputRoot.join skipListName)
      (skipList (SkippedFile.sort (p.skipped ++ w.skipped)))) closed = (.ok (), d') :=
    outcome_write.mpr last
  unfold run
  rw [outcome_bind_ok read]
  unfold publish
  rw [outcome_bind_ok first, outcome_bind_ok pages]
  exact ⟨_, d', outcome_bind_ok final⟩

-- Whether a planned run succeeds is seen on the disk.
theorem run_completes {c : Config} {d : Disk} {p : Plan} (planned : (plan d c).run.value = .ok p)
    (writes : ((d.makeDirectories c.settings.outputRoot).toOption.bind fun opened =>
      (opened.writeAll ((pagesFrom p.analyzer c.settings {} p.files).map (Page.written c.settings))).bind
        fun closed => closed.write (c.settings.outputRoot.join skipListName) "").isSome = true) :
    ∃ summary d', outcome (run c) d = (.ok summary, d') := by
  obtain ⟨d', ran⟩ := Option.isSome_iff_exists.mp writes
  cases made : d.makeDirectories c.settings.outputRoot with
  | error left => rw [made] at ran; cases ran
  | ok opened =>
    rw [made, Except.toOption, Option.bind_some] at ran
    obtain ⟨closed, wrote, ran⟩ := Option.bind_eq_some_iff.mp ran
    exact run_succeeds planned made wrote (by rw [ran]; rfl)

theorem page_exact {a : Analyzer} {s : Settings} {state : Sdk.State} {file : Go.SourceFile} {p : Page}
    (made : answer (page a s file) state = .ok p) :
    p.file = file.path ∧ p.target = s.documentPath (resourceOf file.path) ∧
      p.document = documentOf s a.registry file.path p.calls := by
  unfold page at made
  rw [answer_bind] at made
  cases found : answer (a.resourceCalls file s.comments) state with
  | ok calls =>
    simp only [found, answer_pure, Except.ok.injEq] at made
    simp only [← made, and_self]
  | error conflict =>
    simp only [found, answer_bind, answer_pure, reduceCtorEq] at made

theorem mem_pagesFrom {a : Analyzer} {s : Settings} {state : Sdk.State} {files : List Go.SourceFile}
    {p : Page} (member : p ∈ pagesFrom a s state files) :
    ∃ file ∈ files, p.file = file.path ∧ p.target = s.documentPath (resourceOf file.path) ∧
      p.document = documentOf s a.registry file.path p.calls := by
  induction files generalizing state with
  | nil => cases member
  | cons file rest ih =>
    rw [pagesFrom_cons] at member
    rcases List.mem_append.mp member with here | later
    · cases made : answer (page a s file) state with
      | ok q =>
        rw [made] at here
        cases List.mem_singleton.mp here
        exact ⟨file, List.mem_cons_self, page_exact made⟩
      | error e => rw [made] at here; cases here
    · obtain ⟨other, inside, found⟩ := ih later
      exact ⟨other, List.mem_cons_of_mem _ inside, found⟩

end Run.Scan

end CallAtlas
