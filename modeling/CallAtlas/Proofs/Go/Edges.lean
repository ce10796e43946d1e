import CallAtlas.Proofs.Go.Windows

namespace CallAtlas.Go

theorem Setting.sees_newline (s : Setting) (t : Token) : (s.sees t).newline = t.newline := rfl

theorem Setting.sees_kind (s : Setting) (t : Token) : (s.sees t).kind = t.kind := rfl

namespace Rule

-- A text ends at `last`, or its next line begins at `next`.
structure Edge where
  setting : Setting
  last : Token
  next : Token
  behind : List Token
  eof : last.kind = .eof
  newline : next.newline = true

namespace Edge

variable (g : Edge)

@[simp] theorem last_kind : (g.setting.sees g.last).kind = .eof := g.eof

@[simp] theorem last_isMark (text : String) : (g.setting.sees g.last).isMark text = false := by
  rw [Token.isMark, last_kind]
  rfl

@[simp] theorem last_isWord (text : String) : (g.setting.sees g.last).isWord text = false := by
  rw [Token.isWord, last_kind]
  rfl

@[simp] theorem next_newline : (g.setting.sees g.next).newline = true := g.newline

end Edge

section Runs

variable {s : Setting} {c : Calls} {input : Input}

@[simp] theorem run_pure (a : α) : (Pure.pure a : Rule α).run s c input = .done (a, input) := rfl

@[simp] theorem run_bind (x : Rule α) (f : α → Rule β) :
    (x >>= f).run s c input = (x.run s c input).bind fun r => (f r.1).run s c r.2 := rfl

@[simp] theorem run_ite {b : Prop} [Decidable b] (x y : Rule α) :
    (if b then x else y).run s c input = if b then x.run s c input else y.run s c input := by
  split <;> rfl

@[simp] theorem run_fail : (fail : Rule α).run s c input = .failed := rfl

@[simp] theorem run_peek (t : Token) (more : List Token) (stop : Nat) :
    peek.run s c ⟨t :: more, stop⟩ = .done (s.sees t, ⟨t :: more, stop⟩) := rfl

@[simp] theorem bind_done (a : α) (f : α → Attempt β) : (Attempt.done a).bind f = f a := rfl

@[simp] theorem bind_failed (f : α → Attempt β) : Attempt.failed.bind f = .failed := rfl

theorem run_split (pairs : List String) (t : Token) (more : List Token) (stop : Nat) :
    (split pairs).run s c ⟨t :: more, stop⟩ = .done ((), ⟨(if pairs.any t.isMark then halves t else [t]) ++ more, stop⟩) :=
  rfl

theorem run_optMark (text : String) (f : Bool → Rule β) (t : Token) (more : List Token) (stop : Nat) :
    (optMark text >>= f).run s c ⟨t :: more, stop⟩ =
      if t.isMark text then (next >>= fun _ => f true).run s c ⟨t :: more, stop⟩
      else (f false).run s c ⟨t :: more, stop⟩ := by
  rw [run_bind, optMark, run_bind, run_peek, bind_done]
  change (Attempt.bind ((if t.isMark text then _ else _ : Rule Bool).run s c _) _) = _
  cases t.isMark text with
  | true =>
    rw [if_pos rfl, if_pos rfl, run_bind, run_bind]
    cases next.run s c ⟨t :: more, stop⟩ <;> rfl
  | false => rfl

end Runs

variable {g : Edge} {c : Calls}

theorem Edge.last_single (g : Edge) : g.last.single = false := by
  simp [Token.single, g.eof]

@[simp] theorem next_last (stop : Nat) : next.run g.setting c ⟨[g.last], stop⟩ = .failed := by
  simp [run, Input.take?, g.last_single, Attempt.ofOption]

@[simp] theorem split_last (pairs : List String) (stop : Nat) :
    (split pairs).run g.setting c ⟨[g.last], stop⟩ = .done ((), ⟨[g.last], stop⟩) := by
  have mark : ∀ text, g.last.isMark text = false := g.last_isMark
  simp [run_split, mark]

@[simp] theorem enclosed_last (opening closing : String) (inner : Rule α) (stop : Nat) :
    (enclosed opening closing inner).run g.setting c ⟨[g.last], stop⟩ = .failed := by
  have mark : g.last.isMark opening = false := g.last_isMark opening
  simp [run, Input.take?, mark, Attempt.ofOption]

-- A rule that does not succeed at the end of the text.
def Stuck (g : Edge) (c : Calls) (r : Rule α) : Prop :=
  ∀ stop a rest, r.run g.setting c ⟨[g.last], stop⟩ ≠ .done (a, rest)

-- A rule that reads the same tokens before the end of the text and before another line. If it reads all of them,
-- this is said of the answers in `P` only.
def Crosses (g : Edge) (c : Calls) (P : α → Prop) (r : Rule α) (X : List Token) : Prop :=
  ∀ stop a rest, r.run g.setting c ⟨X ++ [g.last], stop⟩ = .done (a, rest) →
    ∃ X' stop', rest = ⟨X' ++ [g.last], stop'⟩ ∧ Balanced 0 X' ∧ (X = [] → X' = []) ∧
      (X' ≠ [] ∨ P a →
        r.run g.setting c ⟨X ++ g.next :: g.behind, stop⟩ = .done (a, ⟨X' ++ g.next :: g.behind, stop'⟩))

def Passes (g : Edge) (c : Calls) (P : α → Prop) (r : Rule α) : Prop :=
  ∀ X, X ≠ [] → Balanced 0 X → Crosses g c P r X

def Covers (g : Edge) (c : Calls) (P : α → Prop) (r : Rule α) : Prop :=
  ∀ X, Balanced 0 X → Crosses g c P r X

section Calculus

variable {P : α → Prop} {Q : β → Prop} {x : Rule α} {f : α → Rule β} {X : List Token}

theorem Covers.passes (covers : Covers g c P x) : Passes g c P x := fun X _ balanced => covers X balanced

theorem Passes.covers (passes : Passes g c P x) (rests : Crosses g c P x []) : Covers g c P x := by
  intro X balanced
  by_cases none : X = []
  · exact none ▸ rests
  · exact passes X none balanced

theorem Crosses.mono {P' : α → Prop} (crosses : Crosses g c P x X) (weaker : ∀ a, P' a → P a) :
    Crosses g c P' x X := by
  intro stop a rest ran
  obtain ⟨X', stop', left, balanced, none, same⟩ := crosses stop a rest ran
  exact ⟨X', stop', left, balanced, none, fun reached => same (reached.imp_right (weaker a))⟩

theorem Covers.mono {P' : α → Prop} (covers : Covers g c P x) (weaker : ∀ a, P' a → P a) : Covers g c P' x :=
  fun X balanced => (covers X balanced).mono weaker

theorem Passes.mono {P' : α → Prop} (passes : Passes g c P x) (weaker : ∀ a, P' a → P a) : Passes g c P' x :=
  fun X some balanced => (passes X some balanced).mono weaker

theorem Stuck.crosses (stuck : Stuck g c x) : Crosses g c P x [] := fun stop a rest ran => absurd ran (stuck stop a rest)

theorem Crosses.rest (a : α)
    (short : ∀ stop b rest, x.run g.setting c ⟨[g.last], stop⟩ = .done (b, rest) → b = a ∧ rest = ⟨[g.last], stop⟩)
    (long : P a → ∀ stop, x.run g.setting c ⟨g.next :: g.behind, stop⟩ = .done (a, ⟨g.next :: g.behind, stop⟩)) :
    Crosses g c P x [] := by
  intro stop b rest ran
  obtain ⟨rfl, rfl⟩ := short stop b rest ran
  exact ⟨[], stop, rfl, rfl, id, fun reached => long (reached.resolve_left (absurd rfl)) stop⟩

theorem Stuck.peek {f : Token → Rule β} (stuck : Stuck g c (f (g.setting.sees g.last))) : Stuck g c (peek >>= f) := stuck

theorem Stuck.optMark {text : String} {f : Bool → Rule β} (stuck : Stuck g c (f false)) :
    Stuck g c (optMark text >>= f) := by
  intro stop b rest
  have mark : g.last.isMark text = false := g.last_isMark text
  rw [run_optMark, mark]
  exact stuck stop b rest

theorem Stuck.bind (stuck : Stuck g c x) : Stuck g c (x >>= f) := by
  intro stop b rest ran
  obtain ⟨a, middle, ran, _⟩ := done_bind.mp ran
  exact stuck stop a middle ran

theorem Crosses.bind (first : Crosses g c P x X) (further : ∀ a, Covers g c Q (f a))
    (needs : ∀ a stop b rest, (f a).run g.setting c ⟨[g.last], stop⟩ = .done (b, rest) → Q b → P a) :
    Crosses g c Q (x >>= f) X := by
  intro stop b rest ran
  obtain ⟨⟨a, middle⟩, ran, ran'⟩ := Attempt.bind_done.mp ran
  obtain ⟨X₁, stop₁, rfl, balanced₁, none₁, same₁⟩ := first stop a middle ran
  obtain ⟨X₂, stop₂, rfl, balanced₂, none₂, same₂⟩ := further a X₁ balanced₁ stop₁ b rest ran'
  refine ⟨X₂, stop₂, rfl, balanced₂, fun none => none₂ (none₁ none), fun reached => ?_⟩
  have reached₁ : X₁ ≠ [] ∨ P a := by
    by_cases none : X₁ = []
    · subst none
      rcases reached with some | answer
      · exact absurd (none₂ rfl) some
      · exact .inr (needs a stop₁ b _ ran' answer)
    · exact .inl none
  rw [run_bind, same₁ reached₁]
  exact same₂ reached

theorem Passes.bind (first : Passes g c P x) (further : ∀ a, Covers g c Q (f a))
    (needs : ∀ a stop b rest, (f a).run g.setting c ⟨[g.last], stop⟩ = .done (b, rest) → Q b → P a) :
    Passes g c Q (x >>= f) :=
  fun X some balanced => (first X some balanced).bind further needs

theorem Covers.bind (first : Covers g c P x) (further : ∀ a, Covers g c Q (f a))
    (needs : ∀ a stop b rest, (f a).run g.setting c ⟨[g.last], stop⟩ = .done (b, rest) → Q b → P a) :
    Covers g c Q (x >>= f) :=
  fun X balanced => (first X balanced).bind further needs

theorem Crosses.congr {y : Rule α} (same : ∀ input, x.run g.setting c input = y.run g.setting c input)
    (crosses : Crosses g c P y X) : Crosses g c P x X := by
  intro stop a rest ran
  rw [same] at ran ⊢
  exact crosses stop a rest ran

theorem Covers.congr {y : Rule α} (same : ∀ input, x.run g.setting c input = y.run g.setting c input)
    (covers : Covers g c P y) : Covers g c P x :=
  fun X balanced => (covers X balanced).congr same

theorem Covers.andThen (first : Covers g c (fun _ => True) x) (further : ∀ a, Covers g c Q (f a)) :
    Covers g c Q (x >>= f) :=
  first.bind further fun _ _ _ _ _ _ => trivial

theorem Passes.andThen (first : Passes g c (fun _ => True) x) (further : ∀ a, Covers g c Q (f a)) :
    Passes g c Q (x >>= f) :=
  first.bind further fun _ _ _ _ _ _ => trivial

-- Where more must follow, it does not matter what else could.
theorem Covers.before (first : Covers g c P x) (further : ∀ a, Covers g c Q (f a)) (stuck : ∀ a, Stuck g c (f a)) :
    Covers g c Q (x >>= f) :=
  first.bind further fun a stop b rest ran _ => absurd ran (stuck a stop b rest)

theorem Covers.pure (a : α) : Covers g c P (Pure.pure a) := by
  intro X balanced stop b rest ran
  obtain ⟨rfl, rfl⟩ := done_give.mp ran
  exact ⟨X, stop, rfl, balanced, id, fun _ => rfl⟩

theorem Covers.fail : Covers g c P (fail : Rule α) := fun _ _ _ _ _ ran => nomatch ran

theorem Covers.guard {P : Unit → Prop} (b : Bool) : Covers g c P (guardThat b) := by
  cases b with
  | true => exact Covers.pure ()
  | false => exact Covers.fail

theorem Covers.stop {P : Nat → Prop} : Covers g c P Rule.stop := by
  intro X balanced stop b rest ran
  obtain ⟨rfl, rfl⟩ := done_stop.mp ran
  exact ⟨X, stop, rfl, balanced, id, fun _ => rfl⟩

theorem Covers.ite {b : Prop} [Decidable b] {y : Rule α} (yes : Covers g c P x) (no : Covers g c P y) :
    Covers g c P (if b then x else y) := by
  split
  · exact yes
  · exact no

theorem Passes.ite {b : Prop} [Decidable b] {y : Rule α} (yes : Passes g c P x) (no : Passes g c P y) :
    Passes g c P (if b then x else y) := by
  split
  · exact yes
  · exact no

theorem Passes.peek {f : Token → Rule β} (further : ∀ t, Passes g c Q (f t)) : Passes g c Q (peek >>= f) := by
  intro X some balanced
  obtain ⟨t, X, rfl⟩ := List.exists_cons_of_ne_nil some
  exact further (g.setting.sees t) (t :: X) some balanced

theorem Crosses.peek {t : Token} {f : Token → Rule β} (further : Crosses g c Q (f (g.setting.sees t)) (t :: X)) :
    Crosses g c Q (peek >>= f) (t :: X) := further

theorem Crosses.ite {b : Prop} [Decidable b] {y : Rule α} (yes : b → Crosses g c P x X) (no : ¬ b → Crosses g c P y X) :
    Crosses g c P (if b then x else y) X := by
  split
  · exact yes ‹_›
  · exact no ‹_›

-- Where the next token does not count, at the end of a text and at a line feed.
theorem Crosses.look {f : Token → Rule β} {r : Rule β} (short : f (g.setting.sees g.last) = r)
    (long : f (g.setting.sees g.next) = r) (crosses : Crosses g c Q r []) : Crosses g c Q (Rule.peek >>= f) [] := by
  intro stop b rest ran
  change (f (g.setting.sees g.last)).run g.setting c ⟨[g.last], stop⟩ = .done (b, rest) at ran
  rw [short] at ran
  obtain ⟨X', stop', left, balanced, none, same⟩ := crosses stop b rest ran
  refine ⟨X', stop', left, balanced, none, fun reached => ?_⟩
  change (f (g.setting.sees g.next)).run g.setting c ⟨g.next :: g.behind, stop⟩ = _
  rw [long]
  exact same reached

theorem Passes.cut {f : Bool → Rule β} (breaks : Bool) (further : ∀ b, Passes g c Q (f b)) :
    Passes g c Q (Grammar.cut breaks >>= f) := by
  intro X some balanced
  obtain ⟨t, X, rfl⟩ := List.exists_cons_of_ne_nil some
  exact further (breaks && t.newline) (t :: X) some balanced

theorem halves_ne_nil (t : Token) : halves t ≠ [] := by
  rcases halves_eq t with same | ⟨a, b, _, same, _⟩ <;> simp [same]

theorem Passes.split (pairs : List String) {f : Unit → Rule β} (further : Passes g c Q (f ())) :
    Passes g c Q (split pairs >>= f) := by
  intro X some balanced
  obtain ⟨t, X, rfl⟩ := List.exists_cons_of_ne_nil some
  cases pair : pairs.any t.isMark with
  | false =>
    intro stop b rest ran
    rw [run_bind, List.cons_append, run_split, pair] at ran ⊢
    exact further (t :: X) some balanced stop b rest ran
  | true =>
    intro stop b rest ran
    rw [run_bind, List.cons_append, run_split, pair, if_pos rfl, ← List.append_assoc] at ran ⊢
    have left : halves t ++ X ≠ [] := fun none => halves_ne_nil t (List.append_eq_nil_iff.mp none).1
    obtain ⟨X', stop', same, balanced', _, further⟩ := further (halves t ++ X) left (halves_balanced.mpr balanced) stop b rest ran
    exact ⟨X', stop', same, balanced', fun none => absurd none some, further⟩

theorem next_stuck : Stuck g c next := by
  intro stop a rest ran
  rw [next_last] at ran
  cases ran

theorem next_covers : Covers g c (fun _ => True) next := by
  refine Passes.covers (fun X some balanced => ?_) next_stuck.crosses
  obtain ⟨t, X, rfl⟩ := List.exists_cons_of_ne_nil some
  intro stop a rest ran
  obtain ⟨_, _, ahead, single, rfl, rfl⟩ := done_next.mp ran
  cases ahead
  obtain ⟨_, _, opens, closes⟩ := single_iff.mp single
  refine ⟨X, t.stop, rfl, (balanced_plain opens closes).mp balanced, fun none => absurd none some, fun _ => ?_⟩
  exact done_next.mpr ⟨t, X ++ g.next :: g.behind, rfl, single, rfl, rfl⟩

theorem name_stuck : Stuck g c name := next_stuck.bind

theorem name_covers : Covers g c (fun _ => True) name :=
  next_covers.andThen fun t => (Covers.guard (P := fun _ => True) _).andThen fun _ => Covers.pure t

theorem keyword_stuck (text : String) : Stuck g c (keyword text) := next_stuck.bind

theorem keyword_covers (text : String) : Covers g c (fun _ => True) (keyword text) :=
  next_covers.andThen fun _ => Covers.guard _

theorem mark_stuck (text : String) : Stuck g c (mark text) := next_stuck.bind

theorem mark_covers (text : String) : Covers g c (fun _ => True) (mark text) :=
  next_covers.andThen fun _ => Covers.guard _

theorem Passes.optMark (text : String) {f : Bool → Rule β} (yes : Covers g c Q (f true)) (no : Passes g c Q (f false)) :
    Passes g c Q (optMark text >>= f) := by
  intro X some balanced
  obtain ⟨t, X, rfl⟩ := List.exists_cons_of_ne_nil some
  intro stop b rest ran
  cases mark : t.isMark text with
  | false =>
    rw [List.cons_append, run_optMark, mark] at ran ⊢
    exact no (t :: X) some balanced stop b rest ran
  | true =>
    rw [List.cons_append, run_optMark, mark, if_pos rfl] at ran ⊢
    exact (next_covers.andThen fun _ => yes).passes (t :: X) some balanced stop b rest ran

theorem enclosed_stuck (opening closing : String) (inner : Rule α) : Stuck g c (enclosed opening closing inner) := by
  intro stop a rest ran
  rw [enclosed_last] at ran
  cases ran

theorem enclosed_covers (calls : Local c) (opening closing : String) (inner : Rule α) :
    Covers g c P (enclosed opening closing inner) := by
  refine Passes.covers (fun X some balanced => ?_) (enclosed_stuck opening closing inner).crosses
  obtain ⟨t, X, rfl⟩ := List.exists_cons_of_ne_nil some
  intro stop a rest ran
  have same := enclosed_alike (s := g.setting) calls opening closing inner balanced stop [g.last] (g.next :: g.behind)
  rw [ran] at same
  generalize (enclosed opening closing inner).run g.setting c ⟨t :: X ++ g.next :: g.behind, stop⟩ = long at same ⊢
  cases same with
  | done a stop' balanced' => exact ⟨_, stop', rfl, balanced', fun none => absurd none some, fun _ => rfl⟩

theorem tries_passes (calls : Local c) (opening closing : String) (inner : Rule Unit) :
    Passes g c (fun _ => True) (tries (enclosed opening closing inner)) := by
  intro X some balanced
  obtain ⟨t, X, rfl⟩ := List.exists_cons_of_ne_nil some
  intro stop a rest ran
  have same := enclosed_alike (s := g.setting) calls opening closing inner balanced stop [g.last] (g.next :: g.behind)
  rw [tries, run, run_bind] at ran ⊢
  generalize (enclosed opening closing inner).run g.setting c ⟨t :: X ++ [g.last], stop⟩ = short at same ran
  generalize (enclosed opening closing inner).run g.setting c ⟨t :: X ++ g.next :: g.behind, stop⟩ = long at same ⊢
  cases same with
  | done a stop' balanced' =>
    cases ran
    exact ⟨_, stop', rfl, balanced', fun none => absurd none some, fun _ => rfl⟩
  | failed =>
    cases ran
    exact ⟨_, stop, rfl, balanced, id, fun _ => rfl⟩
  | starved => cases ran

-- A step that declines at the end of the text, and where a line begins if that is asked.
structure Ends (g : Edge) (c : Calls) (P : Prop) (r : Rule (Option α)) : Prop where
  short : ∀ stop o rest, r.run g.setting c ⟨[g.last], stop⟩ = .done (o, rest) → o = none ∧ rest = ⟨[g.last], stop⟩
  long : P → ∀ stop, r.run g.setting c ⟨g.next :: g.behind, stop⟩ = .done (none, ⟨g.next :: g.behind, stop⟩)

theorem Ends.loop {P : Prop} {step : α → Rule (Option α)} {a b : α} {stop : Nat} {rest : Input} (ends : Ends g c P (step a))
    (ran : (loop a step).run g.setting c ⟨[g.last], stop⟩ = .done (b, rest)) : b = a ∧ rest = ⟨[g.last], stop⟩ := by
  obtain ⟨n, some⟩ : ∃ n, room = n + 1 := ⟨Nat.pow 2 33 + 7, rfl⟩
  rw [run, some] at ran
  obtain ⟨⟨o, middle⟩, stepped, ran⟩ := Attempt.bind_done.mp ran
  obtain ⟨rfl, rfl⟩ := ends.short stop o middle stepped
  cases ran
  exact ⟨rfl, rfl⟩

theorem Covers.loop {step : α → Rule (Option α)} (a : α) (each : ∀ a, Passes g c (fun o => P (o.getD a)) (step a))
    (ends : ∀ a, Ends g c (P a) (step a)) : Covers g c P (loop a step) := by
  suffices ∀ n X a, Balanced 0 X → ∀ stop b rest,
      repeatStep (fun a => (step a).run g.setting c) n a ⟨X ++ [g.last], stop⟩ = .done (b, rest) →
        ∃ X' stop', rest = ⟨X' ++ [g.last], stop'⟩ ∧ Balanced 0 X' ∧ (X = [] → X' = [] ∧ b = a) ∧
          (X' ≠ [] ∨ P b → repeatStep (fun a => (step a).run g.setting c) n a ⟨X ++ g.next :: g.behind, stop⟩ =
            .done (b, ⟨X' ++ g.next :: g.behind, stop'⟩)) by
    intro X balanced stop b rest ran
    obtain ⟨X', stop', left, balanced', none, same⟩ := this room X a balanced stop b rest ran
    exact ⟨X', stop', left, balanced', fun given => (none given).1, same⟩
  intro n
  induction n with
  | zero => exact fun _ _ _ _ _ _ ran => nomatch ran
  | succ n ih =>
    intro X a balanced stop b rest ran
    obtain ⟨⟨o, middle⟩, stepped, ran⟩ := Attempt.bind_done.mp ran
    by_cases none : X = []
    · subst none
      obtain ⟨rfl, rfl⟩ := (ends a).short stop o middle stepped
      cases ran
      refine ⟨[], stop, rfl, balanced, fun _ => ⟨rfl, rfl⟩, fun reached => ?_⟩
      have declined := (ends a).long (reached.resolve_left (absurd rfl)) stop
      exact Attempt.bind_done.mpr ⟨_, declined, rfl⟩
    · obtain ⟨X₁, stop₁, rfl, balanced₁, _, same₁⟩ := each a X none balanced stop o middle stepped
      cases o with
      | none =>
        cases ran
        exact ⟨X₁, stop₁, rfl, balanced₁, fun given => absurd given none, fun reached =>
          Attempt.bind_done.mpr ⟨_, same₁ reached, rfl⟩⟩
      | some a₁ =>
        obtain ⟨X₂, stop₂, rfl, balanced₂, none₂, same₂⟩ := ih X₁ a₁ balanced₁ stop₁ b rest ran
        refine ⟨X₂, stop₂, rfl, balanced₂, fun given => absurd given none, fun reached => ?_⟩
        have reached₁ : X₁ ≠ [] ∨ P a₁ := by
          by_cases empty : X₁ = []
          · obtain ⟨empty₂, rfl⟩ := none₂ empty
            exact .inr (reached.resolve_left (absurd empty₂))
          · exact .inl empty
        exact Attempt.bind_done.mpr ⟨_, same₁ reached₁, same₂ reached⟩

-- A rule in front of others: nothing is said if it reads all tokens.
def Inside (g : Edge) (c : Calls) (r : Rule α) : Prop := Covers g c (fun _ => False) r

-- A rule that covers and that the end of the text stops.
structure Firm (g : Edge) (c : Calls) (P : α → Prop) (r : Rule α) : Prop where
  covers : Covers g c P r
  stuck : Stuck g c r

theorem Covers.inside (covers : Covers g c P x) : Inside g c x := covers.mono fun _ => False.elim

theorem Covers.at_end {P : α → Prop} {r : Rule α} (covers : Covers g c P r) {stop : Nat} {a : α} {rest : Input}
    (ran : r.run g.setting c ⟨[g.last], stop⟩ = .done (a, rest)) : ∃ stop', rest = ⟨[g.last], stop'⟩ := by
  obtain ⟨X', stop', rfl, _, none, _⟩ := covers [] rfl stop a rest ran
  exact ⟨stop', by rw [none rfl]; rfl⟩

theorem Inside.bind (first : Inside g c x) (further : ∀ a, Inside g c (f a)) : Inside g c (x >>= f) :=
  Covers.bind first further fun _ _ _ _ _ settled => settled.elim

theorem Inside.peek {f : Token → Rule β} (further : ∀ t, Inside g c (f t)) : Inside g c (peek >>= f) := by
  refine Passes.covers (Passes.peek fun t => (further t).passes) fun stop b rest ran => ?_
  obtain ⟨X', stop', rfl, balanced, none, _⟩ := further (g.setting.sees g.last) [] rfl stop b rest ran
  exact ⟨X', stop', rfl, balanced, none, fun reached => absurd (none rfl) (reached.resolve_right id)⟩

theorem Inside.optMark (text : String) {f : Bool → Rule β} (yes : Inside g c (f true)) (no : Inside g c (f false)) :
    Inside g c (optMark text >>= f) := by
  refine Passes.covers (Passes.optMark text yes no.passes) fun stop b rest ran => ?_
  have mark : g.last.isMark text = false := g.last_isMark text
  rw [List.nil_append, run_optMark, mark] at ran
  obtain ⟨X', stop', rfl, balanced, none, _⟩ := no [] rfl stop b rest ran
  exact ⟨X', stop', rfl, balanced, none, fun reached => absurd (none rfl) (reached.resolve_right id)⟩

theorem Firm.after {P : α → Prop} (first : Covers g c P x) (further : ∀ a, Firm g c Q (f a)) : Firm g c Q (x >>= f) where
  covers := first.before (fun a => (further a).covers) fun a => (further a).stuck
  stuck := by
    intro stop b rest ran
    obtain ⟨a, middle, ran, ran'⟩ := done_bind.mp ran
    obtain ⟨stop', rfl⟩ := first.at_end ran
    exact (further a).stuck stop' b rest ran'

theorem Firm.bind (first : Firm g c P x) (further : ∀ a, Covers g c Q (f a)) (needs : ∀ a b, Q b → P a) :
    Firm g c Q (x >>= f) where
  covers := first.covers.bind further fun a _ b _ _ => needs a b
  stuck := first.stuck.bind

theorem Firm.andThen (first : Firm g c (fun _ => True) x) (further : ∀ a, Covers g c Q (f a)) : Firm g c Q (x >>= f) :=
  first.bind further fun _ _ _ => trivial

theorem Firm.peek {f : Token → Rule β} (further : ∀ t, Firm g c Q (f t)) : Firm g c Q (peek >>= f) where
  covers := Passes.covers (Passes.peek fun t => (further t).covers.passes) (Stuck.peek (further _).stuck).crosses
  stuck := Stuck.peek (further _).stuck

theorem Firm.optMark (text : String) {f : Bool → Rule β} (yes : Covers g c Q (f true)) (no : Firm g c Q (f false)) :
    Firm g c Q (optMark text >>= f) where
  covers := Passes.covers (Passes.optMark text yes no.covers.passes) (Stuck.optMark no.stuck).crosses
  stuck := Stuck.optMark no.stuck

theorem Firm.ite {b : Prop} [Decidable b] {y : Rule α} (yes : Firm g c P x) (no : Firm g c P y) :
    Firm g c P (if b then x else y) := by
  split
  · exact yes
  · exact no

theorem Firm.fail : Firm g c P (fail : Rule α) := ⟨Covers.fail, fun _ _ _ ran => nomatch ran⟩

theorem Firm.mono {P' : α → Prop} (firm : Firm g c P x) (weaker : ∀ a, P' a → P a) : Firm g c P' x :=
  ⟨firm.covers.mono weaker, firm.stuck⟩

theorem keyword_firm (text : String) : Firm g c (fun _ => True) (keyword text) := ⟨keyword_covers text, keyword_stuck text⟩

theorem name_firm : Firm g c (fun _ => True) name := ⟨name_covers, name_stuck⟩

theorem next_firm : Firm g c (fun _ => True) next := ⟨next_covers, next_stuck⟩

theorem enclosed_firm (calls : Local c) (opening closing : String) (inner : Rule α) :
    Firm g c P (enclosed opening closing inner) :=
  ⟨enclosed_covers calls opening closing inner, enclosed_stuck opening closing inner⟩

end Calculus

end Rule

end CallAtlas.Go
