import CallAtlas.Proofs.Go.Rules

namespace CallAtlas.Go

-- The tokens close `d` brackets more than they open, and none before it is open.
def Balanced : Nat → List Token → Prop
  | d, [] => d = 0
  | d, t :: rest =>
    if t.opens then Balanced (d + 1) rest
    else if t.closes then 0 < d ∧ Balanced (d - 1) rest
    else Balanced d rest

-- The last of the tokens is the first that closes a bracket opened before all of them, with `d` open inside.
def Window : Nat → List Token → Prop
  | _, [] => False
  | d, t :: rest =>
    if t.opens then Window (d + 1) rest
    else if t.closes then if d = 0 then rest = [] else Window (d - 1) rest
    else Window d rest

section Brackets

variable {t : Token} {d e : Nat} {rest V X : List Token}

theorem closes_not_opens (closes : t.closes = true) : t.opens = false := by
  unfold Token.closes Token.isMark at closes
  unfold Token.opens Token.isMark
  simp only [List.any_cons, List.any_nil, Bool.or_false, Bool.or_eq_true, Bool.and_eq_true, beq_iff_eq] at closes
  rcases closes with ⟨_, same⟩ | ⟨_, same⟩ | ⟨_, same⟩ <;> simp [same]

@[simp] theorem balanced_nil : Balanced d [] ↔ d = 0 := Iff.rfl

theorem balanced_opens (opens : t.opens = true) : Balanced d (t :: rest) ↔ Balanced (d + 1) rest := by
  simp [Balanced, opens]

theorem balanced_closes (closes : t.closes = true) : Balanced d (t :: rest) ↔ 0 < d ∧ Balanced (d - 1) rest := by
  simp [Balanced, closes, closes_not_opens closes]

theorem balanced_plain (opens : t.opens = false) (closes : t.closes = false) :
    Balanced d (t :: rest) ↔ Balanced d rest := by
  simp [Balanced, opens, closes]

theorem window_opens (opens : t.opens = true) : Window d (t :: rest) ↔ Window (d + 1) rest := by
  simp [Window, opens]

theorem window_closes (closes : t.closes = true) : Window (d + 1) (t :: rest) ↔ Window d rest := by
  simp [Window, closes, closes_not_opens closes]

theorem window_ends (closes : t.closes = true) : Window 0 (t :: rest) ↔ rest = [] := by
  simp [Window, closes, closes_not_opens closes]

theorem window_plain (opens : t.opens = false) (closes : t.closes = false) : Window d (t :: rest) ↔ Window d rest := by
  simp [Window, opens, closes]

theorem Window.exists_cons (window : Window d V) : ∃ t rest, V = t :: rest := by
  cases V with
  | nil => exact window.elim
  | cons t rest => exact ⟨t, rest, rfl⟩

-- Tokens that close a bracket begin with a window on it.
theorem Balanced.window (balanced : Balanced (e + 1 + d) X) :
    ∃ V rest, X = V ++ rest ∧ Window e V ∧ Balanced d rest := by
  induction X generalizing e with
  | nil => simp at balanced
  | cons t X ih =>
    cases opens : t.opens with
    | true =>
      rw [balanced_opens opens, show e + 1 + d + 1 = (e + 1) + 1 + d by omega] at balanced
      obtain ⟨V, rest, rfl, window, left⟩ := ih balanced
      exact ⟨t :: V, rest, rfl, (window_opens opens).mpr window, left⟩
    | false =>
      cases closes : t.closes with
      | false =>
        obtain ⟨V, rest, rfl, window, left⟩ := ih ((balanced_plain opens closes).mp balanced)
        exact ⟨t :: V, rest, rfl, (window_plain opens closes).mpr window, left⟩
      | true =>
        have inside := ((balanced_closes closes).mp balanced).2
        cases e with
        | zero =>
          rw [show 0 + 1 + d - 1 = d by omega] at inside
          exact ⟨[t], X, rfl, (window_ends closes).mpr rfl, inside⟩
        | succ e =>
          rw [show e + 1 + 1 + d - 1 = e + 1 + d by omega] at inside
          obtain ⟨V, rest, rfl, window, left⟩ := ih inside
          exact ⟨t :: V, rest, rfl, (window_closes closes).mpr window, left⟩

theorem opens_newline (t : Token) (b : Bool) : ({ t with newline := b } : Token).opens = t.opens := rfl

theorem closes_newline (t : Token) (b : Bool) : ({ t with newline := b } : Token).closes = t.closes := rfl

-- Two lists that begin with tokens of the same kind of bracket.
theorem balanced_congr {u : Token} (opens : t.opens = u.opens) (closes : t.closes = u.closes) :
    Balanced d (t :: rest) ↔ Balanced d (u :: rest) := by
  simp [Balanced, opens, closes]

theorem window_congr {u : Token} (opens : t.opens = u.opens) (closes : t.closes = u.closes) :
    Window d (t :: rest) ↔ Window d (u :: rest) := by
  simp [Window, opens, closes]

-- A mark of two characters is no bracket.
theorem pair_plain {a b : Char} (text : t.text.toList = [a, b]) : t.opens = false ∧ t.closes = false := by
  have other : ∀ s : String, s.toList.length = 1 → (t.text == s) = false := by
    intro s size
    rw [beq_eq_false_iff_ne]
    rintro rfl
    rw [text] at size
    cases size
  unfold Token.opens Token.closes Token.isMark
  simp [other]

-- It falls apart into two marks that are none either.
theorem halves_plain (t : Token) : halves t = [t] ∨ (t.opens = false ∧ t.closes = false) ∧
    ∃ u u', halves t = [u, u'] ∧ (u.opens = false ∧ u.closes = false) ∧ u'.opens = false ∧ u'.closes = false := by
  rcases Rule.halves_eq t with same | ⟨a, b, text, same, first, second⟩
  · exact .inl same
  · exact .inr ⟨pair_plain text, _, _, same, (single_iff.mp first).2.2, (single_iff.mp second).2.2⟩

theorem halves_balanced : Balanced d (halves t ++ rest) ↔ Balanced d (t :: rest) := by
  rcases halves_plain t with same | ⟨⟨opens, closes⟩, u, u', same, ⟨first, first'⟩, second, second'⟩
  · rw [same]
    rfl
  · rw [same, List.cons_append, balanced_plain first first', List.cons_append, balanced_plain second second',
      balanced_plain opens closes]
    rfl

theorem halves_window : Window d (halves t ++ rest) ↔ Window d (t :: rest) := by
  rcases halves_plain t with same | ⟨⟨opens, closes⟩, u, u', same, ⟨first, first'⟩, second, second'⟩
  · rw [same]
    rfl
  · rw [same, List.cons_append, window_plain first first', List.cons_append, window_plain second second',
      window_plain opens closes]
    rfl

end Brackets

namespace Rule

-- Two runs that did the same in front of what follows a place. They left tokens of some kind before it.
inductive Alike (W : List Token → Prop) (Z Z' : List Token) {α : Type} : Attempt (α × Input) → Attempt (α × Input) → Prop
  | done (a : α) {V : List Token} (stop : Nat) (left : W V) :
    Alike W Z Z' (.done (a, ⟨V ++ Z, stop⟩)) (.done (a, ⟨V ++ Z', stop⟩))
  | failed : Alike W Z Z' .failed .failed
  | starved : Alike W Z Z' .starved .starved

def Local (c : Calls) : Prop :=
  ∀ n d V stop Z Z', Window d V → Alike (Window d) Z Z' (c n ⟨V ++ Z, stop⟩) (c n ⟨V ++ Z', stop⟩)

variable {s : Setting} {c : Calls} {d stop : Nat} {V Z Z' : List Token}

theorem Alike.bind {W W' : List Token → Prop} {x x' : Attempt (α × Input)} {f f' : α × Input → Attempt (β × Input)}
    (alike : Alike W Z Z' x x')
    (further : ∀ a V stop, W V → Alike W' Z Z' (f (a, ⟨V ++ Z, stop⟩)) (f' (a, ⟨V ++ Z', stop⟩))) :
    Alike W' Z Z' (x.bind f) (x'.bind f') := by
  cases alike with
  | done a stop left => exact further a _ stop left
  | failed => exact .failed
  | starved => exact .starved

theorem ahead_window {k : Nat} (window : Window d V) : ahead k (V ++ Z) = ahead k (V ++ Z') := by
  induction k generalizing V d with
  | zero =>
    obtain ⟨t, rest, rfl⟩ := window.exists_cons
    rfl
  | succ k ih =>
    obtain ⟨t, rest, rfl⟩ := window.exists_cons
    rw [List.cons_append, List.cons_append, ahead, ahead]
    cases closes : t.closes with
    | true => rfl
    | false =>
      cases opens : t.opens with
      | true => simpa using ih ((window_opens opens).mp window)
      | false => simpa using ih ((window_plain opens closes).mp window)

theorem repeatStep_alike {step : α → Input → Attempt (Option α × Input)}
    (each : ∀ a V stop, Window d V → Alike (Window d) Z Z' (step a ⟨V ++ Z, stop⟩) (step a ⟨V ++ Z', stop⟩)) (n : Nat) (a : α)
    (window : Window d V) : Alike (Window d) Z Z' (repeatStep step n a ⟨V ++ Z, stop⟩) (repeatStep step n a ⟨V ++ Z', stop⟩) := by
  induction n generalizing a V stop with
  | zero => exact .starved
  | succ n ih =>
    refine (each a V stop window).bind fun next V stop window => ?_
    cases next with
    | none => exact .done a stop window
    | some b => exact ih b window

theorem run_alike (calls : Local c) (r : Rule α) (stop : Nat) (Z Z' : List Token) (window : Window d V) :
    Alike (Window d) Z Z' (r.run s c ⟨V ++ Z, stop⟩) (r.run s c ⟨V ++ Z', stop⟩) := by
  induction r generalizing d V stop with
  | give a => exact .done a stop window
  | andThen first further ih ih' => exact (ih stop window).bind fun a V stop window => ih' a stop window
  | fail => exact .failed
  | peekAt k =>
    rw [run, run, ahead_window window]
    exact .done _ stop window
  | stop => exact .done _ stop window
  | next =>
    obtain ⟨t, rest, rfl⟩ := window.exists_cons
    rw [run, run, Input.take?, Input.take?]
    dsimp only [List.cons_append]
    cases single : t.single with
    | false => exact .failed
    | true =>
      obtain ⟨_, _, opens, closes⟩ := single_iff.mp single
      exact .done _ t.stop ((window_plain opens closes).mp window)
  | split pairs =>
    obtain ⟨t, rest, rfl⟩ := window.exists_cons
    rw [run, run, Input.replace?, Input.replace?]
    dsimp only [List.cons_append]
    cases pairs.any t.isMark with
    | false => exact .done () stop window
    | true =>
      simp only [if_true, ← List.append_assoc]
      exact .done () stop (halves_window.mpr window)
  | passNewline =>
    obtain ⟨t, rest, rfl⟩ := window.exists_cons
    exact .done () stop ((window_congr (opens_newline t false) (closes_newline t false)).mpr window)
  | call n => exact calls n d V stop Z Z' window
  | orTry first second ih ih' =>
    have one := ih stop window
    have other := ih' stop window
    rw [run, run]
    generalize first.run s c ⟨V ++ Z, stop⟩ = x at one ⊢
    generalize first.run s c ⟨V ++ Z', stop⟩ = x' at one ⊢
    cases one with
    | done a stop window => exact .done a stop window
    | failed => exact other
    | starved => exact .starved
  | loop a step ih => exact repeatStep_alike (fun b V stop window => ih b stop window) room a window
  | enclosed opening closing inner ih =>
    obtain ⟨t, rest, rfl⟩ := window.exists_cons
    rw [run, run, Input.take?, Input.take?]
    dsimp only [List.cons_append]
    cases fits : t.isMark opening && t.opens with
    | false => exact .failed
    | true =>
      rw [Bool.and_eq_true] at fits
      change Alike (Window d) Z Z' ((inner.run s c ⟨rest ++ Z, t.stop⟩).bind _) ((inner.run s c ⟨rest ++ Z', t.stop⟩).bind _)
      refine (ih t.stop ((window_opens fits.2).mp window)).bind fun a V stop window => ?_
      obtain ⟨u, behind, rfl⟩ := window.exists_cons
      rw [Input.take?, Input.take?]
      dsimp only [List.cons_append]
      cases ends : u.isMark closing && u.closes with
      | false => exact .failed
      | true =>
        rw [Bool.and_eq_true] at ends
        exact .done a u.stop ((window_closes ends.2).mp window)

theorem calls_local (s : Setting) (depth : Nat) : Local (Grammar.calls s depth) := by
  induction depth with
  | zero => exact fun _ _ _ _ _ _ _ => .starved
  | succ depth ih => exact fun n d V stop Z Z' window => run_alike ih n.rule stop Z Z' window

-- A rule that reads a bracket reads to where it is closed, and depends on nothing behind.
theorem enclosed_group {t : Token} {X : List Token} (opens : t.opens = true) (balanced : Balanced 0 (t :: X)) :
    ∃ rest, Balanced 0 rest ∧ ∀ (c : Calls), Local c → ∀ (s : Setting) (opening closing : String) {α : Type}
      (inner : Rule α) (stop : Nat) (Z Z' : List Token),
      Alike (· = rest) Z Z' ((enclosed opening closing inner).run s c ⟨t :: X ++ Z, stop⟩)
        ((enclosed opening closing inner).run s c ⟨t :: X ++ Z', stop⟩) := by
  obtain ⟨V, rest, rfl, window, left⟩ := Balanced.window (e := 0) (d := 0) ((balanced_opens opens).mp balanced)
  refine ⟨rest, left, fun c calls s opening closing α inner stop Z Z' => ?_⟩
  rw [run, run, Input.take?, Input.take?]
  dsimp only [List.cons_append]
  cases fits : t.isMark opening && t.opens with
  | false => exact .failed
  | true =>
    have inside := run_alike (s := s) calls inner t.stop (rest ++ Z) (rest ++ Z') window
    rw [← List.append_assoc, ← List.append_assoc] at inside
    change Alike (· = rest) Z Z' ((inner.run s c ⟨V ++ rest ++ Z, t.stop⟩).bind _)
      ((inner.run s c ⟨V ++ rest ++ Z', t.stop⟩).bind _)
    generalize inner.run s c ⟨V ++ rest ++ Z, t.stop⟩ = x at inside ⊢
    generalize inner.run s c ⟨V ++ rest ++ Z', t.stop⟩ = x' at inside ⊢
    cases inside with
    | failed => exact .failed
    | starved => exact .starved
    | done a stop window =>
      obtain ⟨u, behind, rfl⟩ := window.exists_cons
      rw [Attempt.bind, Attempt.bind, Input.take?, Input.take?]
      dsimp only [List.cons_append]
      cases ends : u.isMark closing && u.closes with
      | false => exact .failed
      | true =>
        rw [Bool.and_eq_true] at ends
        obtain rfl := (window_ends ends.2).mp window
        exact .done (W := (· = rest)) a u.stop rfl

theorem enclosed_alike (calls : Local c) (opening closing : String) (inner : Rule α) {t : Token} {X : List Token}
    (balanced : Balanced 0 (t :: X)) (stop : Nat) (Z Z' : List Token) :
    Alike (Balanced 0) Z Z' ((enclosed opening closing inner).run s c ⟨t :: X ++ Z, stop⟩)
      ((enclosed opening closing inner).run s c ⟨t :: X ++ Z', stop⟩) := by
  cases opens : t.opens with
  | false =>
    rw [run, run, Input.take?, Input.take?]
    simp only [List.cons_append, opens, Bool.and_false]
    exact .failed
  | true =>
    obtain ⟨rest, left, group⟩ := enclosed_group opens balanced
    have same := group c calls s opening closing inner stop Z Z'
    generalize (enclosed opening closing inner).run s c ⟨t :: X ++ Z, stop⟩ = x at same ⊢
    generalize (enclosed opening closing inner).run s c ⟨t :: X ++ Z', stop⟩ = x' at same ⊢
    cases same with
    | done a stop here => exact .done a stop (here ▸ left)
    | failed => exact .failed
    | starved => exact .starved

-- A property of the tokens ahead, with `d` brackets open, that holds before whatever is read if it holds behind.
structure Unread (P : Nat → List Token → Prop) : Prop where
  single : ∀ {d t more}, t.single = true → P d more → P d (t :: more)
  opens : ∀ {d t more}, t.opens = true → P (d + 1) more → P d (t :: more)
  closes : ∀ {d t more}, t.closes = true → P d more → P (d + 1) (t :: more)
  spaced : ∀ {d t more b} (comments), P d ({ t with newline := b, comments := comments } :: more) → P d (t :: more)
  halves : ∀ {d t more}, t.kind = .mark → P d (halves t ++ more) → P d (t :: more)

def Recalls (P : Nat → List Token → Prop) (c : Calls) : Prop :=
  ∀ n input a rest d, c n input = .done (a, rest) → P d rest.tokens → P d input.tokens

theorem run_unread {P : Nat → List Token → Prop} (unread : Unread P) (calls : Recalls P c) (r : Rule α) {a : α}
    {input rest : Input} (ran : r.run s c input = .done (a, rest)) (behind : P d rest.tokens) : P d input.tokens := by
  induction r generalizing input rest d with
  | give =>
    cases ran
    exact behind
  | andThen first further ih ih' =>
    obtain ⟨b, middle, ran, ran'⟩ := done_bind.mp ran
    exact ih ran (ih' b ran' behind)
  | fail => cases ran
  | peekAt =>
    cases ran
    exact behind
  | stop =>
    cases ran
    exact behind
  | next =>
    obtain ⟨u, more, ahead, single, _, rfl⟩ := done_next.mp ran
    rw [ahead]
    exact unread.single single behind
  | split pairs =>
    obtain ⟨t, more, ahead, rfl⟩ := done_split.mp ran
    rw [ahead]
    dsimp only at behind
    split at behind
    · rename_i pair
      obtain ⟨_, _, mark⟩ := List.any_eq_true.mp pair
      exact unread.halves (isMark_kind mark) behind
    · exact behind
  | passNewline =>
    obtain ⟨t, more, ahead, rfl⟩ := done_passNewline.mp ran
    rw [ahead]
    exact unread.spaced t.comments behind
  | call n => exact calls n input a rest d ran behind
  | orTry first second ih ih' =>
    rcases done_orTry.mp ran with ran | ⟨_, ran⟩
    · exact ih ran behind
    · exact ih' ran behind
  | loop b step ih =>
    have each : ∀ b here b' there, (P d here.tokens → P d input.tokens) →
        (step b).run s c here = .done (some b', there) → P d there.tokens → P d input.tokens :=
      fun b here b' there known ran behind => known (ih b ran behind)
    obtain ⟨middle, known, ended⟩ := done_loop (P := fun _ here => P d here.tokens → P d input.tokens) each id ran
    exact known (ih a ended behind)
  | enclosed opening closing inner ih =>
    obtain ⟨t, more, u, left, stop, ahead, opens, inside, closes, rfl⟩ := done_enclosed.mp ran
    rw [Bool.and_eq_true] at opens closes
    rw [ahead]
    exact unread.opens opens.2 (ih inside (unread.closes closes.2 behind))

theorem calls_unread {P : Nat → List Token → Prop} (unread : Unread P) (s : Setting) (depth : Nat) :
    Recalls P (Grammar.calls s depth) := by
  induction depth with
  | zero => exact fun _ _ _ _ _ ran => nomatch ran
  | succ depth ih => exact fun n _ _ _ _ ran behind => run_unread unread ih n.rule ran behind

theorem balanced_unread : Unread Balanced where
  single single balanced := by
    obtain ⟨_, _, opens, closes⟩ := single_iff.mp single
    exact (balanced_plain opens closes).mpr balanced
  opens opens balanced := (balanced_opens opens).mpr balanced
  closes closes balanced := (balanced_closes closes).mpr ⟨Nat.succ_pos _, balanced⟩
  spaced {_ t _ _} _ balanced := (balanced_congr (u := t) rfl rfl).mp balanced
  halves _ balanced := halves_balanced.mp balanced

-- No rule reads what begins no token.
theorem plain_unread : Unread fun _ ts => ∀ t ∈ ts, t.kind ≠ .stray where
  single single plain := List.forall_mem_cons.mpr ⟨(single_iff.mp single).2.1, plain⟩
  opens opens plain := by
    obtain ⟨_, _, mark⟩ := List.any_eq_true.mp opens
    exact List.forall_mem_cons.mpr ⟨by rw [isMark_kind mark]; nofun, plain⟩
  closes closes plain := by
    obtain ⟨_, _, mark⟩ := List.any_eq_true.mp closes
    exact List.forall_mem_cons.mpr ⟨by rw [isMark_kind mark]; nofun, plain⟩
  spaced _ plain := by
    obtain ⟨first, others⟩ := List.forall_mem_cons.mp plain
    exact List.forall_mem_cons.mpr ⟨first, others⟩
  halves mark plain :=
    List.forall_mem_cons.mpr ⟨by rw [mark]; nofun, fun u member => plain u (List.mem_append_right _ member)⟩

end Rule

end CallAtlas.Go
