import CallAtlas.Proofs.Go.Rules

namespace CallAtlas.Go

section Shifts

variable (bytes lines : Nat)

def Token.shift (t : Token) : Token :=
  { t with start := t.start + bytes, stop := t.stop + bytes, line := t.line + lines }

def Setting.shift (s : Setting) : Setting := ⟨s.start + bytes, s.line + lines⟩

def Input.shift (input : Input) : Input := ⟨input.tokens.map (Token.shift bytes lines), input.stop + bytes⟩

def Attempt.shift (x : Attempt (α × Input)) : Attempt (α × Input) :=
  x.bind fun r => .done (r.1, r.2.shift bytes lines)

def Grammar.Placed.shift (p : Grammar.Placed) : Grammar.Placed := ⟨p.start + bytes, p.line + lines, p.item⟩

variable {bytes lines} {s : Setting} {t : Token}

theorem Token.shift_closes : (t.shift bytes lines).closes = t.closes := rfl

theorem Token.shift_single : (t.shift bytes lines).single = t.single := rfl

theorem Setting.shift_sees : (s.shift bytes lines).sees (t.shift bytes lines) = s.sees t := by
  simp [Setting.sees, Setting.shift, Token.shift, Nat.add_sub_add_right]

theorem Setting.sees_nothing (s' : Setting) : s'.sees (.ending 0 0 false []) = s.sees (.ending 0 0 false []) := by
  simp [Setting.sees, Token.ending]

theorem ahead_shift (n : Nat) (ts : List Token) :
    ahead n (ts.map (Token.shift bytes lines)) = (ahead n ts).map (Token.shift bytes lines) := by
  induction ts generalizing n with
  | nil => cases n <;> rfl
  | cons t more ih =>
    cases n with
    | zero => rfl
    | succ n =>
      rw [List.map_cons, ahead, ahead, Token.shift_closes, ih]
      cases t.closes <;> rfl

theorem halves_shift (t : Token) :
    halves (t.shift bytes lines) = (halves t).map (Token.shift bytes lines) := by
  have first (a : Char) : firstHalf (t.shift bytes lines) a = (firstHalf t a).shift bytes lines := by
    simp [firstHalf, Token.shift, Nat.add_right_comm]
  have second (a b : Char) : secondHalf (t.shift bytes lines) a b = (secondHalf t a b).shift bytes lines := by
    simp [secondHalf, Token.shift, Nat.add_right_comm]
  have text : (t.shift bytes lines).text = t.text := rfl
  unfold halves
  rw [text]
  split
  · rename_i a b _
    rw [first, second, Token.shift_single, Token.shift_single]
    split <;> rfl
  · rfl

theorem Input.take?_shift {fits : Token → Bool} (same : ∀ t : Token, fits (t.shift bytes lines) = fits t) (input : Input) :
    (input.shift bytes lines).take? fits =
      (input.take? fits).map fun r => (r.1.shift bytes lines, r.2.shift bytes lines) := by
  obtain ⟨ts, stop⟩ := input
  cases ts with
  | nil => rfl
  | cons t more =>
    simp only [Input.take?, Input.shift, List.map_cons, same]
    split <;> rfl

namespace Rule

variable {c c' : Calls} {input : Input}

theorem run_shift (calls : ∀ n input, c' n (input.shift bytes lines) = (c n input).shift bytes lines) (r : Rule α) :
    r.run (s.shift bytes lines) c' (input.shift bytes lines) = (r.run s c input).shift bytes lines := by
  induction r generalizing input with
  | give a => rfl
  | andThen first further ih ih' =>
    rw [run, run, ih]
    cases first.run s c input with
    | done r => exact ih' r.1
    | failed => rfl
    | starved => rfl
  | fail => rfl
  | peekAt n =>
    rw [run, run, Input.shift, ahead_shift]
    cases ahead n input.tokens with
    | none => rw [Option.map_none, Option.getD_none, Setting.sees_nothing (s := s)]; rfl
    | some t => rw [Option.map_some, Option.getD_some, Setting.shift_sees]; rfl
  | stop =>
    rw [run, run]
    simp [Attempt.shift, Attempt.bind, Input.shift, Setting.shift, Nat.add_sub_add_right]
  | next =>
    rw [run, run, Input.take?_shift fun _ => Token.shift_single]
    cases input.take? Token.single with
    | none => rfl
    | some taken =>
      simp only [Option.map_some, Setting.shift_sees]
      rfl
  | split pairs =>
    obtain ⟨ts, stop⟩ := input
    cases ts with
    | nil => rfl
    | cons t more =>
      change Attempt.done ((), (⟨(if pairs.any t.isMark then halves (t.shift bytes lines) else [t.shift bytes lines]) ++
        more.map (Token.shift bytes lines), stop + bytes⟩ : Input)) = .done ((), Input.shift bytes lines
          ⟨(if pairs.any t.isMark then halves t else [t]) ++ more, stop⟩)
      rw [halves_shift, Input.shift, List.map_append]
      split <;> rfl
  | passNewline =>
    obtain ⟨ts, stop⟩ := input
    cases ts <;> rfl
  | call n => exact calls n input
  | orTry first second ih ih' =>
    rw [run, run, ih, ih']
    cases first.run s c input <;> rfl
  | loop a step ih =>
    rw [run, run]
    generalize room = n
    induction n generalizing a input with
    | zero => rfl
    | succ n ih' =>
      rw [repeatStep, repeatStep, ih]
      cases (step a).run s c input with
      | failed => rfl
      | starved => rfl
      | done r =>
        obtain ⟨next, rest⟩ := r
        cases next with
        | none => rfl
        | some b => exact ih' b
  | enclosed opening closing inner ih =>
    rw [run, run, Input.take?_shift fun _ => rfl]
    cases input.take? fun t => t.isMark opening && t.opens with
    | none => rfl
    | some opened =>
      change ((inner.run (s.shift bytes lines) c' (opened.2.shift bytes lines)).bind _) = Attempt.shift _ _ ((inner.run s c opened.2).bind _)
      rw [ih]
      cases inner.run s c opened.2 with
      | failed => rfl
      | starved => rfl
      | done r =>
        change (Attempt.ofOption ((r.2.shift bytes lines).take? _)).bind _ = Attempt.shift _ _ ((Attempt.ofOption (r.2.take? _)).bind _)
        rw [Input.take?_shift fun _ => rfl]
        cases r.2.take? fun t => t.isMark closing && t.closes <;> rfl

end Rule

namespace Grammar

theorem calls_shift (s : Setting) (depth : Nat) (n : Nonterminal) (input : Input) :
    calls (s.shift bytes lines) depth n (input.shift bytes lines) = (calls s depth n input).shift bytes lines := by
  induction depth generalizing n input with
  | zero => rfl
  | succ depth ih => exact Rule.run_shift ih n.rule

theorem runItem_shift (r : Rule α) (ts : List Token) :
    runItem r (ts.map (Token.shift bytes lines)) = (runItem r ts).shift bytes lines := by
  cases ts with
  | nil => rfl
  | cons t more =>
    let s : Setting := ⟨t.start, t.line⟩
    let input : Input := ⟨{ t with newline := false, comments := [] } :: more, t.start⟩
    change r.run (s.shift bytes lines) _ (input.shift bytes lines) = (r.run s _ input).shift bytes lines
    exact Rule.run_shift (calls_shift s room) r

-- Items are the same further behind.
theorem items_shift (n : Nat) (ts : List Token) :
    items n (ts.map (Token.shift bytes lines)) = (items n ts).map (·.map (Placed.shift bytes lines)) := by
  induction n generalizing ts with
  | zero => rfl
  | succ n ih =>
    cases ts with
    | nil => rfl
    | cons t more =>
      have item : runItem entry ((t :: more).map (Token.shift bytes lines)) = _ := runItem_shift entry (t :: more)
      rw [List.map_cons] at item ⊢
      rw [items, items, item]
      have kind : (t.shift bytes lines).kind = t.kind := rfl
      rw [kind]
      split
      · rfl
      · cases runItem entry (t :: more) with
        | failed => rfl
        | starved => rfl
        | done r =>
          change (items n (r.2.tokens.map (Token.shift bytes lines))).map _ = ((items n r.2.tokens).map _).map _
          rw [ih, Option.map_map, Option.map_map]
          rfl

end Grammar

end Shifts

end CallAtlas.Go
