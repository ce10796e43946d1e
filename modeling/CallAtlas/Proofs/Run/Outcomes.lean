import CallAtlas.Run.Publishing

namespace CallAtlas

section Results

variable {ε : Type} {x : Except ε α} {a : α}

theorem ok_of_toOption (given : x.toOption = some a) : x = .ok a := by
  cases x with
  | ok b => exact congrArg Except.ok (Option.some.inj given)
  | error e => cases given

theorem ok_of_isOk (ok : x.isOk = true) : ∃ a, x = .ok a := by
  cases x with
  | ok a => exact ⟨a, rfl⟩
  | error e => cases ok

theorem error_of_isOk (failed : x.isOk = false) : ∃ e, x = .error e := by
  cases x with
  | ok a => cases failed
  | error e => exact ⟨e, rfl⟩

end Results

namespace Attempt

theorem run_continued (m : Attempt α) (f : α → Attempt β) :
    (m >>= f).run.value = (ExceptT.bindCont f m.run.value : Noted _).value := rfl

theorem run_bind_ok {m : Attempt α} {f : α → Attempt β} {a : α} (first : m.run.value = .ok a) :
    (m >>= f).run.value = (f a).run.value := by
  rw [run_continued, first]
  rfl

theorem run_bind {m : Attempt α} {f : α → Attempt β} {b : β} (ran : (m >>= f).run.value = .ok b) :
    ∃ a, m.run.value = .ok a ∧ (f a).run.value = .ok b := by
  rw [run_continued] at ran
  cases given : m.run.value with
  | ok a => rw [given] at ran; exact ⟨a, rfl, ran⟩
  | error e => rw [given] at ran; cases ran

def Fails (m : Attempt α) : Prop := ∃ e, m.run.value = .error e

theorem fails_or_gives (m : Attempt α) : m.Fails ∨ ∃ a, m.run.value = .ok a := by
  cases given : m.run.value with
  | error e => exact .inl ⟨e, given⟩
  | ok a => exact .inr ⟨a, rfl⟩

theorem not_fails_of_gives {m : Attempt α} {a : α} (gives : m.run.value = .ok a) : ¬ m.Fails := by
  rintro ⟨e, failed⟩
  rw [gives] at failed
  cases failed

theorem fails_bind {m : Attempt α} {f : α → Attempt β} :
    (m >>= f).Fails ↔ m.Fails ∨ ∃ a, m.run.value = .ok a ∧ (f a).Fails := by
  unfold Fails
  rw [run_continued]
  cases given : m.run.value with
  | ok a =>
    constructor
    · rintro ⟨e, failed⟩
      exact .inr ⟨a, rfl, e, failed⟩
    · rintro (⟨_, ⟨⟩⟩ | ⟨_, ⟨⟩, failed⟩)
      exact failed
  | error e =>
    constructor
    · intro _
      exact .inl ⟨e, rfl⟩
    · intro _
      exact ⟨e, rfl⟩

-- Where later work fails for a reason of its own, one of two reasons is enough.
theorem fails_bind_either {m : Attempt α} {f : α → Attempt β} {P : Prop}
    (later : ∀ a, (f a).Fails ↔ P) : (m >>= f).Fails ↔ m.Fails ∨ P := by
  rw [fails_bind]
  constructor
  · rintro (failed | ⟨a, _, failed⟩)
    · exact .inl failed
    · exact .inr ((later a).mp failed)
  · rintro (failed | reason)
    · exact .inl failed
    · refine m.fails_or_gives.imp_right ?_
      rintro ⟨a, gives⟩
      exact ⟨a, gives, (later a).mpr reason⟩

theorem fails_lift {x : Except Failure α} :
    (liftM x : Attempt α).Fails ↔ ∃ e, x = .error e := by
  cases x with
  | ok a => exact ⟨nofun, nofun⟩
  | error e => exact ⟨fun _ => ⟨e, rfl⟩, fun _ => ⟨e, rfl⟩⟩

end Attempt

namespace Publishing

def outcome (m : Publishing α) (d : Disk) : Except Failure α × Disk := (m.run.run d).value

theorem outcome_lift (n : Noted α) (d : Disk) :
    outcome (liftM n : Publishing α) d = (.ok n.value, d) := rfl

-- What follows a failure is not run.
theorem outcome_continued (m : Publishing α) (f : α → Publishing β) (d : Disk) :
    outcome (m >>= f) d =
      outcome (ExceptT.bindCont f (outcome m d).1 : StateT Disk Noted _) (outcome m d).2 := rfl

theorem outcome_bind_ok {m : Publishing α} {f : α → Publishing β} {d middle : Disk} {a : α}
    (first : outcome m d = (.ok a, middle)) : outcome (m >>= f) d = outcome (f a) middle := by
  rw [outcome_continued, first]
  rfl

theorem outcome_bind {m : Publishing α} {f : α → Publishing β} {d d' : Disk} {b : β}
    (ran : outcome (m >>= f) d = (.ok b, d')) :
    ∃ a middle, outcome m d = (.ok a, middle) ∧ outcome (f a) middle = (.ok b, d') := by
  rw [outcome_continued] at ran
  cases given : outcome m d with
  | mk result middle =>
    rw [given] at ran
    cases result with
    | ok a => exact ⟨a, middle, rfl, ran⟩
    | error e => cases ran

theorem outcome_bind_failed {m : Publishing α} {f : α → Publishing β} {d d' : Disk} {e : Failure}
    (first : outcome m d = (.error e, d')) : outcome (m >>= f) d = (.error e, d') := by
  rw [outcome_continued, first]
  rfl

theorem outcome_bind_error {m : Publishing α} {f : α → Publishing β} {d d' : Disk} {e : Failure}
    (ran : outcome (m >>= f) d = (.error e, d')) :
    outcome m d = (.error e, d') ∨
      ∃ a middle, outcome m d = (.ok a, middle) ∧ outcome (f a) middle = (.error e, d') := by
  rw [outcome_continued] at ran
  cases given : outcome m d with
  | mk result middle =>
    rw [given] at ran
    cases result with
    | ok a => exact .inr ⟨a, middle, rfl, ran⟩
    | error e =>
      cases ran
      exact .inl rfl

-- Work that goes on alike from every result has one outcome.
theorem outcome_bind_congr {m : Publishing α} {f g : α → Publishing β} {d : Disk}
    (alike : ∀ a middle, outcome m d = (.ok a, middle) → outcome (f a) middle = outcome (g a) middle) :
    outcome (m >>= f) d = outcome (m >>= g) d := by
  cases given : outcome m d with
  | mk result middle =>
    cases result with
    | ok a => rw [outcome_bind_ok given, outcome_bind_ok given, alike a middle given]
    | error e => rw [outcome_bind_failed given, outcome_bind_failed given]

theorem outcome_reading {f : Disk → Attempt α} {d d' : Disk} {a : α} :
    outcome (reading f) d = (.ok a, d') ↔ (f d).run.value = .ok a ∧ d = d' := by
  have read : outcome (reading f) d = ((f d).run.value, d) := rfl
  rw [read, Prod.mk.injEq]

theorem outcome_reading_error {f : Disk → Attempt α} {d d' : Disk} {e : Failure} :
    outcome (reading f) d = (.error e, d') ↔ (f d).run.value = .error e ∧ d = d' := by
  have read : outcome (reading f) d = ((f d).run.value, d) := rfl
  rw [read, Prod.mk.injEq]

theorem outcome_change {f : Disk → Except Disk Disk} {d d' : Disk} :
    outcome (change f) d = (.ok (), d') ↔ f d = .ok d' := by
  unfold outcome change
  cases changed : f d with
  | ok next => simp [StateT.run, changed]
  | error left => simp [StateT.run, changed]

theorem outcome_change_error {f : Disk → Except Disk Disk} {d d' : Disk} {e : Failure} :
    outcome (change f) d = (.error e, d') ↔ f d = .error d' ∧ e = .io := by
  unfold outcome change
  cases changed : f d with
  | ok next => simp [StateT.run, changed]
  | error left => simp [StateT.run, changed, eq_comm, and_comm]

theorem outcome_write {p : Path} {content : String} {d d' : Disk} :
    outcome (Publishing.write p content) d = (.ok (), d') ↔ d.write p content = some d' := by
  rw [Publishing.write, outcome_change]
  cases d.write p content <;> simp

-- A file that is not written leaves the files as they are.
theorem outcome_write_error {p : Path} {content : String} {d d' : Disk} {e : Failure} :
    outcome (Publishing.write p content) d = (.error e, d') ↔ d.write p content = none ∧ e = .io ∧ d' = d := by
  rw [Publishing.write, outcome_change_error]
  cases d.write p content <;> simp [eq_comm, and_comm]

theorem outcome_makeDirectories {p : Path} {d d' : Disk} :
    outcome (makeDirectories p) d = (.ok (), d') ↔ d.makeDirectories p = .ok d' :=
  outcome_change

end Publishing

end CallAtlas
