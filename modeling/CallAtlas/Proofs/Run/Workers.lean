import CallAtlas.Proofs.Run.Planning
import Mathlib.Logic.Relation

namespace CallAtlas.Run.Scan

open Relation SkippedFile

-- A resource file that waits for a worker, or what a worker has made of it.
inductive Slot where
  | waiting (path : Path)
  | finished (file? : Option Go.SourceFile)

-- The resource files in order, and the files left out, which the workers share.
structure Pool where
  slots : List Slot
  skipped : List SkippedFile

variable {d : Disk} {s : Settings}

namespace Pool

def start (found : Discovery) : Pool := ⟨found.resources.map .waiting, found.skipped⟩

-- A worker finishes, whichever it is.
inductive Finishes (d : Disk) (s : Settings) : Pool → Pool → Prop
  | read {before after : List Slot} {path : Path} {file : Go.SourceFile} {skipped : List SkippedFile}
      (parsed : readOutcome d s path = .ok file) :
      Finishes d s ⟨before ++ .waiting path :: after, skipped⟩
        ⟨before ++ .finished (some file) :: after, skipped⟩
  | leaveOut {before after : List Slot} {path : Path} {f : SkippedFile} {skipped : List SkippedFile}
      (failed : readOutcome d s path = .error f) :
      Finishes d s ⟨before ++ .waiting path :: after, skipped⟩
        ⟨before ++ .finished none :: after, skipped ++ [f]⟩

def Idle (pool : Pool) : Prop := ∀ path, Slot.waiting path ∉ pool.slots

-- The files that were read, in their order.
def files (pool : Pool) : List Go.SourceFile :=
  pool.slots.filterMap fun
    | .waiting _ => none
    | .finished file? => file?

-- A file that waits can be read or left out, so the workers do not stop before all have finished.
theorem idle_iff {pool : Pool} : pool.Idle ↔ ∀ next, ¬ Finishes d s pool next := by
  obtain ⟨slots, skipped⟩ := pool
  constructor
  · intro idle next step
    cases step with
    | read _ => exact idle _ List.mem_append_cons_self
    | leaveOut _ => exact idle _ List.mem_append_cons_self
  · intro stopped path member
    obtain ⟨before, after, rfl⟩ := List.append_of_mem member
    cases read : readOutcome d s path with
    | ok file => exact stopped _ (.read read)
    | error f => exact stopped _ (.leaveOut read)

end Pool

-- The file that a slot holds in the end.
def Slot.held (d : Disk) (s : Settings) : Slot → Option Go.SourceFile
  | .waiting path => (readOutcome d s path).toOption
  | .finished file? => file?

-- What is still to be added to the files left out.
def Slot.owed (d : Disk) (s : Settings) : Slot → Option SkippedFile
  | .waiting path => refusal? (readOutcome d s path)
  | .finished _ => none

namespace Pool

variable {pool next : Pool} {files : List Go.SourceFile} {skipped : List SkippedFile}

structure ComesTo (d : Disk) (s : Settings) (files : List Go.SourceFile) (skipped : List SkippedFile)
    (pool : Pool) : Prop where
  held : pool.slots.filterMap (Slot.held d s) = files
  owed : (pool.skipped ++ pool.slots.filterMap (Slot.owed d s)).Perm skipped

theorem start_comesTo (found : Discovery) :
    ComesTo d s (readResources d s found.resources).value.1
      (found.skipped ++ (readResources d s found.resources).value.2) (start found) := by
  rw [readResources_eq]
  constructor
  · simp only [start, kept, List.filterMap_map]
    rfl
  · simp only [start, leftOut, List.filterMap_map]
    exact .refl _

-- Only the order of the files left out depends on which worker finishes.
theorem ComesTo.step (comes : ComesTo d s files skipped pool) (step : Finishes d s pool next) :
    ComesTo d s files skipped next := by
  obtain ⟨held, owed⟩ := comes
  cases step with
  | @read before after path file shared parsed =>
    have gives : Slot.held d s (.waiting path) = some file := by rw [Slot.held, parsed]; rfl
    have owes : Slot.owed d s (.waiting path) = none := by rw [Slot.owed, parsed]; rfl
    simp only [List.filterMap_append, List.filterMap_cons, gives, owes] at held owed
    constructor
    · simp only [List.filterMap_append, List.filterMap_cons, Slot.held]
      exact held
    · simp only [List.filterMap_append, List.filterMap_cons, Slot.owed]
      exact owed
  | @leaveOut before after path f shared failed =>
    have gives : Slot.held d s (.waiting path) = none := by rw [Slot.held, failed]; rfl
    have owes : Slot.owed d s (.waiting path) = some f := by rw [Slot.owed, failed]; rfl
    simp only [List.filterMap_append, List.filterMap_cons, gives, owes] at held owed
    constructor
    · simp only [List.filterMap_append, List.filterMap_cons, Slot.held]
      exact held
    · simp only [List.filterMap_append, List.filterMap_cons, Slot.owed, List.append_assoc,
        List.singleton_append]
      refine .trans (.append_left shared ?_) owed
      exact List.perm_middle.symm

theorem ComesTo.run (comes : ComesTo d s files skipped pool)
    (ran : ReflTransGen (Finishes d s) pool next) : ComesTo d s files skipped next := by
  induction ran with
  | refl => exact comes
  | tail _ last ih => exact ih.step last

theorem ComesTo.idle (comes : ComesTo d s files skipped pool) (idle : pool.Idle) :
    pool.files = files ∧ pool.skipped.Perm skipped := by
  obtain ⟨held, owed⟩ := comes
  have none_owed : pool.slots.filterMap (Slot.owed d s) = [] := by
    rw [List.filterMap_eq_nil_iff]
    intro slot member
    cases slot with
    | waiting path => exact absurd member (idle path)
    | finished file? => rfl
  rw [none_owed, List.append_nil] at owed
  refine ⟨?_, owed⟩
  rw [← held]
  refine List.filterMap_congr ?_
  intro slot member
  cases slot with
  | waiting path => exact absurd member (idle path)
  | finished file? => rfl

theorem runs_in_order (paths : List Path) (done : List Slot) (skipped : List SkippedFile) :
    ReflTransGen (Finishes d s) ⟨done ++ paths.map .waiting, skipped⟩
      ⟨done ++ paths.map fun path => .finished (readOutcome d s path).toOption,
        skipped ++ leftOut (paths.map (readOutcome d s))⟩ := by
  induction paths generalizing done skipped with
  | nil =>
    simp only [List.map_nil, leftOut_nil, List.append_nil]
    exact .refl
  | cons path rest ih =>
    simp only [List.map_cons]
    cases read : readOutcome d s path with
    | ok file =>
      have further := ih (done ++ [.finished (some file)]) skipped
      simp only [List.append_assoc, List.singleton_append] at further
      exact .head (.read read) further
    | error f =>
      have further := ih (done ++ [.finished none]) (skipped ++ [f])
      simp only [List.append_assoc, List.singleton_append] at further
      exact .head (.leaveOut read) further

end Pool

-- A plan whose resource files were read by workers, until none was left to finish.
inductive Pooled (d : Disk) (c : Config) : Plan → Prop
  | mk {inputs : Inputs} {found : Discovery} {pool : Pool}
      (read : (readInputs d c.settings).run.value = .ok inputs)
      (searched : discover d c inputs.schema = .ok found)
      (ran : ReflTransGen (Pool.Finishes d c.settings) (.start found) pool)
      (stopped : ∀ next, ¬ Pool.Finishes d c.settings pool next) :
      Pooled d c ⟨pool.files, pool.skipped, analyzerOf d c.settings inputs⟩

variable {c : Config} {p q : Plan}

theorem pooled_exact (pooled : Pooled d c q) : ∃ p, (plan d c).run.value = .ok p ∧
    q.files = p.files ∧ q.analyzer = p.analyzer ∧ q.skipped.Perm p.skipped := by
  obtain ⟨read, searched, ran, stopped⟩ := pooled
  obtain ⟨files, skipped⟩ := ((Pool.start_comesTo _).run ran).idle (Pool.idle_iff.mpr stopped)
  exact ⟨_, plan_exact.mpr ⟨_, _, read, searched, rfl⟩, files, rfl, skipped⟩

-- Workers may also finish in the order of the files.
theorem plan_pooled (planned : (plan d c).run.value = .ok p) : Pooled d c p := by
  obtain ⟨inputs, found, read, searched, rfl⟩ := plan_exact.mp planned
  let pool : Pool :=
    ⟨found.resources.map fun path => .finished (readOutcome d c.settings path).toOption,
      found.skipped ++ leftOut (found.resources.map (readOutcome d c.settings))⟩
  have ran : ReflTransGen (Pool.Finishes d c.settings) (.start found) pool :=
    Pool.runs_in_order found.resources [] found.skipped
  have idle : pool.Idle := by
    intro path member
    obtain ⟨_, _, same⟩ := List.mem_map.mp member
    cases same
  have files : pool.files = kept (found.resources.map (readOutcome d c.settings)) := by
    simp only [pool, Pool.files, kept, List.filterMap_map]
    rfl
  rw [readResources_eq, ← files]
  exact .mk read searched ran (Pool.idle_iff.mp idle)

end CallAtlas.Run.Scan
