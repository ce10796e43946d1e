import CallAtlas.Go.SourceFile

namespace CallAtlas.Go

theorem single_iff {t : Token} :
    t.single = true ↔ t.kind ≠ .eof ∧ t.kind ≠ .stray ∧ t.opens = false ∧ t.closes = false := by
  simp [Token.single, and_assoc]

theorem Attempt.bind_done {x : Attempt α} {f : α → Attempt β} {b : β} :
    x.bind f = .done b ↔ ∃ a, x = .done a ∧ f a = .done b := by
  cases x <;> simp [Attempt.bind]

theorem Attempt.ofOption_done {x : Option α} {a : α} : Attempt.ofOption x = .done a ↔ x = some a := by
  cases x <;> simp [Attempt.ofOption]

theorem Input.take?_some {input rest : Input} {fits : Token → Bool} {t : Token} :
    input.take? fits = some (t, rest) ↔
      fits t = true ∧ ∃ more, input.tokens = t :: more ∧ rest = ⟨more, t.stop⟩ := by
  unfold Input.take?
  cases input.tokens with
  | nil => simp
  | cons u more =>
    by_cases fit : fits u = true
    · simp only [fit, if_true, Option.some.injEq, Prod.mk.injEq, List.cons.injEq]
      constructor
      · rintro ⟨rfl, rfl⟩
        exact ⟨fit, more, ⟨rfl, rfl⟩, rfl⟩
      · rintro ⟨_, _, ⟨rfl, rfl⟩, rfl⟩
        exact ⟨rfl, rfl⟩
    · simp only [fit]
      constructor
      · nofun
      · rintro ⟨fit', _, ⟨rfl, _⟩, _⟩
        exact absurd fit' fit

theorem Input.replace?_some {input rest : Input} {f : Token → List Token} :
    input.replace? f = some rest ↔
      ∃ t more, input.tokens = t :: more ∧ rest = { input with tokens := f t ++ more } := by
  unfold Input.replace?
  cases input.tokens with
  | nil => simp
  | cons t more =>
    constructor
    · rintro ⟨⟩
      exact ⟨t, more, rfl, rfl⟩
    · rintro ⟨_, _, ⟨rfl, rfl⟩, rfl⟩
      rfl

namespace Rule

variable {s : Setting} {c : Calls} {input middle rest : Input}

theorem done_give {a b : α} : (Pure.pure a : Rule α).run s c input = .done (b, rest) ↔ b = a ∧ rest = input := by
  change Attempt.done (a, input) = .done (b, rest) ↔ _
  simp [eq_comm]

theorem done_bind {x : Rule α} {f : α → Rule β} {b : β} :
    (x >>= f).run s c input = .done (b, rest) ↔
      ∃ a middle, x.run s c input = .done (a, middle) ∧ (f a).run s c middle = .done (b, rest) := by
  change ((x.run s c input).bind fun r => (f r.1).run s c r.2) = .done (b, rest) ↔ _
  rw [Attempt.bind_done, Prod.exists]

theorem done_orTry {x y : Rule α} {a : α} :
    (orTry x y).run s c input = .done (a, rest) ↔
      x.run s c input = .done (a, rest) ∨ x.run s c input = .failed ∧ y.run s c input = .done (a, rest) := by
  rw [run]
  cases x.run s c input <;> simp

theorem done_peekAt {n : Nat} {t : Token} : (peekAt n).run s c input = .done (t, rest) ↔
    t = s.sees ((ahead n input.tokens).getD (.ending 0 0 false [])) ∧ rest = input := by
  change Attempt.done (s.sees ((ahead n input.tokens).getD (.ending 0 0 false [])), input) = .done (t, rest) ↔ _
  simp [eq_comm]

theorem done_stop {n : Nat} : Rule.stop.run s c input = .done (n, rest) ↔ n = input.stop - s.start ∧ rest = input := by
  change Attempt.done (input.stop - s.start, input) = .done (n, rest) ↔ _
  simp [eq_comm]

theorem done_next {t : Token} : next.run s c input = .done (t, rest) ↔
    ∃ u more, input.tokens = u :: more ∧ u.single = true ∧ t = s.sees u ∧ rest = ⟨more, u.stop⟩ := by
  change Attempt.ofOption ((input.take? Token.single).map fun taken => (s.sees taken.1, taken.2)) = .done (t, rest) ↔ _
  rw [Attempt.ofOption_done, Option.map_eq_some_iff]
  constructor
  · rintro ⟨⟨u, rest⟩, taken, same⟩
    cases same
    obtain ⟨single, more, ahead, rfl⟩ := Input.take?_some.mp taken
    exact ⟨u, more, ahead, single, rfl, rfl⟩
  · rintro ⟨u, more, ahead, single, rfl, rfl⟩
    exact ⟨(u, _), Input.take?_some.mpr ⟨single, more, ahead, rfl⟩, rfl⟩

theorem done_replace {f : Token → List Token} {u : Unit} :
    Attempt.ofOption ((input.replace? f).map ((), ·)) = .done (u, rest) ↔
      ∃ t more, input.tokens = t :: more ∧ rest = { input with tokens := f t ++ more } := by
  rw [Attempt.ofOption_done, Option.map_eq_some_iff]
  simp only [Prod.mk.injEq, true_and, exists_eq_right, Input.replace?_some]

theorem done_split {pairs : List String} {u : Unit} : (split pairs).run s c input = .done (u, rest) ↔
    ∃ t more, input.tokens = t :: more ∧
      rest = { input with tokens := (if pairs.any t.isMark then halves t else [t]) ++ more } :=
  done_replace

theorem done_passNewline {u : Unit} : passNewline.run s c input = .done (u, rest) ↔
    ∃ t more, input.tokens = t :: more ∧ rest = { input with tokens := { t with newline := false } :: more } :=
  done_replace

theorem done_guard {b : Bool} {u : Unit} :
    (guardThat b).run s c input = .done (u, rest) ↔ b = true ∧ rest = input := by
  cases b with
  | true => simp [guardThat, done_give]
  | false => simp [guardThat, run]

theorem done_enclosed {opening closing : String} {inner : Rule α} {a : α} :
    (enclosed opening closing inner).run s c input = .done (a, rest) ↔
      ∃ t more u behind stop, input.tokens = t :: more ∧ (t.isMark opening && t.opens) = true ∧
        inner.run s c ⟨more, t.stop⟩ = .done (a, ⟨u :: behind, stop⟩) ∧ (u.isMark closing && u.closes) = true ∧
        rest = ⟨behind, u.stop⟩ := by
  rw [run]
  simp only [Attempt.bind_done, Attempt.ofOption_done]
  constructor
  · rintro ⟨⟨t, inside⟩, taken, ⟨b, behind⟩, ran, ⟨u, rest'⟩, taken', same⟩
    cases same
    obtain ⟨opens, more, ahead, rfl⟩ := Input.take?_some.mp taken
    obtain ⟨closes, more', ahead', rfl⟩ := Input.take?_some.mp taken'
    obtain ⟨_, stop⟩ := behind
    cases ahead'
    exact ⟨t, more, u, more', stop, ahead, opens, ran, closes, rfl⟩
  · rintro ⟨t, more, u, behind, stop, ahead, opens, ran, closes, rfl⟩
    exact ⟨(t, _), Input.take?_some.mpr ⟨opens, more, ahead, rfl⟩, (a, _), ran, (u, _),
      Input.take?_some.mpr ⟨closes, behind, rfl, rfl⟩, rfl⟩

-- An invariant of the steps that a loop takes holds where it ends, at a step that declines.
theorem repeatStep_done {step : α → Input → Attempt (Option α × Input)} {P : α → Input → Prop}
    (kept : ∀ a input b rest, P a input → step a input = .done (some b, rest) → P b rest) {n : Nat} {a b : α}
    {input rest : Input} (given : P a input) (ran : repeatStep step n a input = .done (b, rest)) :
    ∃ middle, P b middle ∧ step b middle = .done (none, rest) := by
  induction n generalizing a input with
  | zero => cases ran
  | succ n ih =>
    obtain ⟨⟨next, further⟩, stepped, ran⟩ := Attempt.bind_done.mp ran
    cases next with
    | none =>
      cases ran
      exact ⟨input, given, stepped⟩
    | some next => exact ih (kept _ _ _ _ given stepped) ran

theorem done_loop {step : α → Rule (Option α)} {P : α → Input → Prop}
    (kept : ∀ a input b rest, P a input → (step a).run s c input = .done (some b, rest) → P b rest) {a b : α}
    (given : P a input) (ran : (loop a step).run s c input = .done (b, rest)) :
    ∃ middle, P b middle ∧ (step b).run s c middle = .done (none, rest) :=
  repeatStep_done kept given ran

theorem loop_declined {step : α → Rule (Option α)} {a : α} (declined : (step a).run s c input = .done (none, rest)) :
    (loop a step).run s c input = .done (a, rest) := by
  obtain ⟨n, some⟩ : ∃ n, room = n + 1 := ⟨Nat.pow 2 33 + 7, rfl⟩
  rw [run, some]
  exact Attempt.bind_done.mpr ⟨_, declined, rfl⟩

theorem isMark_kind {t : Token} {text : String} (mark : t.isMark text = true) : t.kind = .mark := by
  rw [Token.isMark, Bool.and_eq_true] at mark
  exact eq_of_beq mark.1

theorem halves_eq (t : Token) : halves t = [t] ∨ ∃ a b, t.text.toList = [a, b] ∧
    halves t = [firstHalf t a, secondHalf t a b] ∧ (firstHalf t a).single = true ∧ (secondHalf t a b).single = true := by
  unfold halves
  split
  · rename_i a b text
    split
    · rename_i both
      rw [Bool.and_eq_true] at both
      exact .inr ⟨a, b, text, rfl, both⟩
    · exact .inl rfl
  · exact .inl rfl

theorem halves_mark {t u : Token} (member : u ∈ halves t) : u = t ∨ u.kind = .mark ∧ t.start ≤ u.start := by
  rcases halves_eq t with same | ⟨a, b, _, same, _⟩
  · rw [same] at member
    exact .inl (List.mem_singleton.mp member)
  · rw [same] at member
    rcases List.mem_cons.mp member with rfl | member
    · exact .inr ⟨rfl, Nat.le_refl _⟩
    · cases List.mem_singleton.mp member
      exact .inr ⟨rfl, Nat.le_add_right _ _⟩

-- A property of what is still to be read that reading and marking leave as it is.
structure Carried (P : Input → Prop) : Prop where
  tail : ∀ t more stop, P ⟨t :: more, stop⟩ → P ⟨more, t.stop⟩
  newline : ∀ t more stop, P ⟨t :: more, stop⟩ → P ⟨{ t with newline := false } :: more, stop⟩
  halves : ∀ t more stop, t.kind = .mark → P ⟨t :: more, stop⟩ → P ⟨halves t ++ more, stop⟩

def Carries (P : Input → Prop) (c : Calls) : Prop := ∀ n input a rest, P input → c n input = .done (a, rest) → P rest

theorem run_carried {P : Input → Prop} (carried : Carried P) (calls : Carries P c) (r : Rule α) {a : α} (given : P input)
    (ran : r.run s c input = .done (a, rest)) : P rest := by
  induction r generalizing input rest with
  | give =>
    cases ran
    exact given
  | andThen first further ih ih' =>
    obtain ⟨b, middle, ran, ran'⟩ := done_bind.mp ran
    exact ih' b (ih given ran) ran'
  | fail => cases ran
  | peekAt =>
    cases ran
    exact given
  | stop =>
    cases ran
    exact given
  | next =>
    obtain ⟨u, more, ahead, _, _, rfl⟩ := done_next.mp ran
    obtain ⟨_, stop⟩ := input
    cases ahead
    exact carried.tail u more stop given
  | split pairs =>
    obtain ⟨t, more, ahead, rfl⟩ := done_split.mp ran
    obtain ⟨_, stop⟩ := input
    cases ahead
    dsimp only
    split
    · rename_i pair
      obtain ⟨_, _, mark⟩ := List.any_eq_true.mp pair
      exact carried.halves t more stop (isMark_kind mark) given
    · exact given
  | passNewline =>
    obtain ⟨t, more, ahead, rfl⟩ := done_passNewline.mp ran
    obtain ⟨_, stop⟩ := input
    cases ahead
    exact carried.newline t more stop given
  | call n => exact calls n input a rest given ran
  | orTry first second ih ih' =>
    rcases done_orTry.mp ran with ran | ⟨_, ran⟩
    · exact ih given ran
    · exact ih' given ran
  | loop b step ih =>
    have each : ∀ b input b' rest, P input → (step b).run s c input = .done (some b', rest) → P rest :=
      fun b _ _ _ given ran => ih b given ran
    obtain ⟨middle, given, ended⟩ := done_loop (P := fun _ input => P input) each given ran
    exact ih a given ended
  | enclosed opening closing inner ih =>
    obtain ⟨t, more, u, behind, stop, ahead, _, inside, _, rfl⟩ := done_enclosed.mp ran
    obtain ⟨_, stop'⟩ := input
    cases ahead
    exact carried.tail u behind stop (ih (carried.tail t more stop' given) inside)

theorem calls_carried {P : Input → Prop} (carried : Carried P) (s : Setting) (depth : Nat) :
    Carries P (Grammar.calls s depth) := by
  induction depth with
  | zero => exact fun _ _ _ _ _ ran => nomatch ran
  | succ depth ih => exact fun n _ _ _ given ran => run_carried carried ih n.rule given ran

-- The same of a property of the tokens ahead.
structure Kept (P : List Token → Prop) : Prop where
  tail : ∀ t more, P (t :: more) → P more
  newline : ∀ t more, P (t :: more) → P ({ t with newline := false } :: more)
  halves : ∀ t more, t.kind = .mark → P (t :: more) → P (halves t ++ more)

theorem Kept.each {P : Token → Prop} (newline : ∀ t, P t → P { t with newline := false })
    (halved : ∀ t u, t.kind = .mark → u ∈ Go.halves t → P t → P u) : Kept fun ts => ∀ t ∈ ts, P t where
  tail t more given u member := given u (List.mem_cons_of_mem _ member)
  newline t more given := List.forall_mem_cons.mpr ⟨newline t (given t List.mem_cons_self),
    fun u member => given u (List.mem_cons_of_mem _ member)⟩
  halves t more mark given u member := by
    rcases List.mem_append.mp member with member | member
    · exact halved t u mark member (given t List.mem_cons_self)
    · exact given u (List.mem_cons_of_mem _ member)

def Keeps (P : List Token → Prop) (c : Calls) : Prop := Carries (fun input => P input.tokens) c

variable {P : List Token → Prop}

theorem Kept.carried (kept : Kept P) : Carried fun input => P input.tokens :=
  ⟨fun t more _ => kept.tail t more, fun t more _ => kept.newline t more, fun t more _ => kept.halves t more⟩

theorem run_kept (kept : Kept P) (calls : Keeps P c) (r : Rule α) {a : α} (given : P input.tokens)
    (ran : r.run s c input = .done (a, rest)) : P rest.tokens :=
  run_carried kept.carried calls r given ran

theorem calls_kept (kept : Kept P) (s : Setting) (depth : Nat) : Keeps P (Grammar.calls s depth) :=
  calls_carried kept.carried s depth

-- What a rule gives wherever it is applied. Nothing is said about the tokens it leaves.
def Gives (P : α → Prop) (r : Rule α) : Prop :=
  ∀ s c input a rest, r.run s c input = .done (a, rest) → P a

theorem Gives.pure {P : α → Prop} {a : α} (given : P a) : Gives P (Pure.pure a) := by
  intro s c input b rest ran
  obtain ⟨rfl, _⟩ := done_give.mp ran
  exact given

theorem Gives.bind {P : α → Prop} {Q : β → Prop} {x : Rule α} {f : α → Rule β}
    (first : Gives P x) (second : ∀ a, P a → Gives Q (f a)) : Gives Q (x >>= f) := by
  intro s c input b rest ran
  obtain ⟨a, middle, ran, further⟩ := done_bind.mp ran
  exact second a (first s c input a middle ran) s c middle b rest further

theorem Gives.after {Q : β → Prop} {x : Rule α} {f : α → Rule β} (second : ∀ a, Gives Q (f a)) :
    Gives Q (x >>= f) := by
  intro s c input b rest ran
  obtain ⟨a, middle, _, further⟩ := done_bind.mp ran
  exact second a s c middle b rest further

theorem Gives.optional {Q : β → Prop} {b : Prop} [Decidable b] {x : Rule Unit} {f : Unit → Rule β}
    (second : ∀ u, Gives Q (f u)) : Gives Q (if b then x >>= f else f ()) := by
  split
  · exact Gives.after second
  · exact second ()

theorem Gives.orTry {P : α → Prop} {first second : Rule α} (one : Gives P first)
    (other : Gives P second) : Gives P (orTry first second) := by
  intro s c input a rest ran
  rcases done_orTry.mp ran with ran | ⟨_, ran⟩
  · exact one s c input a rest ran
  · exact other s c input a rest ran

-- An invariant of the value that a loop carries. Leaving the loop keeps the value it had.
theorem Gives.loop {P : α → Prop} {step : α → Rule (Option α)} {a : α} (given : P a)
    (kept : ∀ a, P a → Gives (∀ b ∈ ·, P b) (step a)) : Gives P (loop a step) := by
  intro s c input b rest ran
  have each : ∀ a input b rest, P a → (step a).run s c input = .done (some b, rest) → P b :=
    fun a input b rest given ran => kept a given s c input (some b) rest ran b rfl
  obtain ⟨_, given, _⟩ := done_loop (P := fun a _ => P a) each given ran
  exact given

theorem Gives.enclosed {P : α → Prop} {opening closing : String} {inner : Rule α} (given : Gives P inner) :
    Gives P (enclosed opening closing inner) := by
  intro s c input a rest ran
  obtain ⟨t, more, u, behind, stop, _, _, ran, _⟩ := done_enclosed.mp ran
  exact given s c _ a _ ran

-- What a rule gives where `Q` holds of what is still to be read.
def Answers (Q : Input → Prop) (s : Setting) (c : Calls) (P : α → Prop) (r : Rule α) : Prop :=
  ∀ input a rest, Q input → r.run s c input = .done (a, rest) → P a

section Answers

variable {Q : Input → Prop} (carried : Carried Q) (carries : Carries Q c)

theorem Answers.of_gives {P : α → Prop} {r : Rule α} (gives : Gives P r) : Answers Q s c P r :=
  fun _ _ _ _ ran => gives _ _ _ _ _ ran

theorem Answers.pure {P : α → Prop} {a : α} (given : P a) : Answers Q s c P (Pure.pure a) :=
  Answers.of_gives (Gives.pure given)

include carried carries

theorem Answers.bind {P : α → Prop} {P' : β → Prop} {x : Rule α} {f : α → Rule β} (first : Answers Q s c P x)
    (second : ∀ a, P a → Answers Q s c P' (f a)) : Answers Q s c P' (x >>= f) := by
  intro input b rest given ran
  obtain ⟨a, middle, ran, further⟩ := done_bind.mp ran
  exact second a (first input a middle given ran) middle b rest (run_carried carried carries x given ran) further

theorem Answers.after {P : β → Prop} {x : Rule α} {f : α → Rule β} (second : ∀ a, Answers Q s c P (f a)) :
    Answers Q s c P (x >>= f) :=
  Answers.bind (P := fun _ => True) carried carries (fun _ _ _ _ _ => trivial) fun a _ => second a

theorem Answers.optional {P : β → Prop} {b : Prop} [Decidable b] {x : Rule Unit} {f : Unit → Rule β}
    (second : ∀ u, Answers Q s c P (f u)) : Answers Q s c P (if b then x >>= f else f ()) := by
  split
  · exact Answers.after carried carries second
  · exact second ()

theorem Answers.loop {P : α → Prop} {step : α → Rule (Option α)} {a : α} (given : P a)
    (kept : ∀ a, P a → Answers Q s c (∀ b ∈ ·, P b) (step a)) : Answers Q s c P (loop a step) := by
  intro input b rest ahead ran
  have each : ∀ a input b rest, P a ∧ Q input → (step a).run s c input = .done (some b, rest) → P b ∧ Q rest := by
    intro a input b rest given ran
    exact ⟨kept a given.1 input (some b) rest given.2 ran b rfl, run_carried carried carries _ given.2 ran⟩
  obtain ⟨_, given, _⟩ := done_loop (P := fun a input => P a ∧ Q input) each ⟨given, ahead⟩ ran
  exact given.1

omit carries

theorem Answers.enclosed {P : α → Prop} {opening closing : String} {inner : Rule α} (given : Answers Q s c P inner) :
    Answers Q s c P (enclosed opening closing inner) := by
  intro input a rest ahead ran
  obtain ⟨t, more, u, behind, stop, same, _, inside, _⟩ := done_enclosed.mp ran
  obtain ⟨_, stop'⟩ := input
  cases same
  exact given ⟨more, t.stop⟩ a _ (carried.tail t more stop' ahead) inside

end Answers

end Rule

end CallAtlas.Go
