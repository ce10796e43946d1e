import CallAtlas.Proofs.Go.Edges

namespace CallAtlas.Go.Grammar

open Rule

-- Behind such an answer a line feed ends the expression.
def Settled (k : Context) (isType : Bool) : Prop := k.breaks = true ∧ isType = false

-- What calls do at an edge. A type goes on behind a line feed unless line feeds end it, and so does what a line
-- feed does not end.
structure Continues (g : Edge) (c : Calls) : Prop where
  windows : Local c
  stuck : ∀ n, Stuck g c (call n)
  expr : ∀ k : Context, k.types = false → Covers g c (fun o => Settled k o.isType) (expr k)
  typ : ∀ breaks, Covers g c (fun _ => breaks = true) (typ breaks)
  block : Covers g c (fun _ => True) block
  params : Covers g c (fun _ => True) params
  literal : Covers g c (fun _ => True) literal
  statement : Covers g c (fun _ => True) (statement false)
  ifStatement : Covers g c (fun _ => True) (call .ifStatement)

variable {g : Edge} {c : Calls}

section Types

theorem typeRule_stuck (breaks : Bool) : Stuck g c (typeRule breaks) := by
  intro stop a rest
  simp [typeRule, arrayType]

theorem selected_covers (breaks : Bool) : Covers g c (fun _ => breaks = true) (selected breaks) := by
  unfold selected
  refine Passes.covers (Passes.cut breaks fun b => .ite (Covers.pure ()).passes (Passes.optMark "." ?_ ?_)) ?_
  · exact name_covers.andThen fun _ => Covers.pure ()
  · exact (Covers.pure ()).passes
  · exact Crosses.rest () (by simp [cut, optMark]) (by rintro rfl; simp [cut])

variable (h : Continues g c)

include h

theorem instantiated_covers (breaks : Bool) : Covers g c (fun _ => breaks = true) (instantiated breaks) := by
  unfold instantiated
  refine Passes.covers (Passes.cut breaks fun b => .ite (Covers.pure ()).passes (Passes.peek fun t => ?_)) ?_
  · exact .ite ((tries_passes h.windows "[" "]" _).andThen fun _ => Covers.pure ()) (Covers.pure ()).passes
  · exact Crosses.rest () (by simp [cut]) (by rintro rfl; simp [cut])

theorem result_covers (breaks : Bool) : Covers g c (fun _ => breaks = true) (result breaks) := by
  unfold result
  refine Passes.covers (Passes.cut breaks fun b => .ite (Covers.pure ()).passes (Passes.peek fun t => ?_)) ?_
  · exact .ite (h.params.mono fun _ _ => trivial).passes (.ite (h.typ breaks).passes (Covers.pure ()).passes)
  · exact Crosses.rest () (by simp [cut, startsType]) (by rintro rfl; simp [cut])

theorem functionType_covers (breaks : Bool) : Covers g c (fun _ => breaks = true) (functionType breaks) :=
  (keyword_covers "func").andThen fun _ => h.params.andThen fun _ => result_covers h breaks

theorem mapType_covers (breaks : Bool) : Covers g c (fun _ => breaks = true) (mapType breaks) :=
  (keyword_covers "map").andThen fun _ => (enclosed_covers h.windows "[" "]" _).andThen fun _ => h.typ breaks

theorem structType_covers : Covers g c (fun _ => True) structType :=
  (keyword_covers "struct").andThen fun _ => enclosed_covers h.windows _ _ _

theorem interfaceType_covers : Covers g c (fun _ => True) interfaceType :=
  (keyword_covers "interface").andThen fun _ => enclosed_covers h.windows _ _ _

theorem arrayType_covers (breaks implied : Bool) : Covers g c (fun _ => breaks = true) (arrayType breaks implied) := by
  unfold arrayType
  refine (enclosed_covers h.windows _ _ _).andThen fun isImplied => (h.typ breaks).bind (fun _ => Covers.pure _) ?_
  exact fun _ _ _ _ _ reached => reached

theorem channelType_covers (breaks : Bool) : Covers g c (fun _ => breaks = true) (channelType breaks) := by
  unfold channelType
  refine Passes.covers (Passes.optMark "<-" ?_ ?_) (Stuck.optMark (keyword_stuck "chan").bind).crosses
  · exact (keyword_covers "chan").andThen fun _ => h.typ breaks
  · refine ((keyword_covers "chan").andThen fun _ => Passes.covers ?_ ?_).passes
    · exact Passes.optMark "<-" (h.typ breaks) (h.typ breaks).passes
    · exact (Stuck.optMark (h.stuck _)).crosses

theorem typeRule_covers (breaks : Bool) : Covers g c (fun _ => breaks = true) (typeRule breaks) := by
  refine Passes.covers (Passes.peek fun t => ?_) (typeRule_stuck breaks).crosses
  refine .ite (functionType_covers h breaks).passes ?_
  refine .ite (mapType_covers h breaks).passes ?_
  refine .ite (channelType_covers h breaks).passes ?_
  refine .ite ((structType_covers h).mono fun _ _ => trivial).passes ?_
  refine .ite ((interfaceType_covers h).mono fun _ _ => trivial).passes ?_
  refine .ite (next_covers.andThen fun _ => ?_).passes ?_
  · exact (selected_covers breaks).bind (fun _ => instantiated_covers h breaks) fun _ _ _ _ _ reached => reached
  refine .ite (next_covers.andThen fun _ => h.typ breaks).passes ?_
  refine .ite (enclosed_covers h.windows _ _ _).passes ?_
  exact ((arrayType_covers h breaks false).bind (fun _ => Covers.pure ()) fun _ _ _ _ _ reached => reached).passes

end Types

section Operands

def SettledForm (k : Context) (found : Shape × Form) : Prop := Settled k found.2.isType

variable (k : Context)

-- A type is an operand that is not settled.
theorem typed_covers {P : α → Prop} {r : Rule α} {f : α → Rule (Shape × Form)} (covers : Covers g c P r)
    (further : ∀ a, Covers g c (SettledForm k) (f a)) (types : ∀ a, Gives (fun found => found.2.isType = true) (f a)) :
    Covers g c (SettledForm k) (r >>= f) := by
  refine covers.bind further fun a stop b rest ran settled => ?_
  have isType : b.2.isType = true := types a _ _ _ _ _ ran
  have other : b.2.isType = false := settled.2
  rw [isType] at other
  cases other

theorem takenAs_covers {P : Shape × Form → Prop} (shape : Shape) (form : Form) :
    Covers g c P (takenAs shape form) :=
  next_covers.andThen fun _ => Covers.pure _

theorem operandStart_stuck : Stuck g c (operandStart k) := by
  intro stop a rest
  simp [operandStart]

theorem operandStep_ends (now : Shape × Form) : Ends g c (SettledForm k now) (operandStep k now) where
  short := by simp [operandStep, cut]
  long := by
    rintro ⟨breaks, plain⟩
    simp [operandStep, cut, breaks, plain]

theorem isMark_opens {t : Token} (opening : t.isMark "(" = true) : t.opens = true := by
  simp [Token.opens, opening]

-- A bracket that opens is closed before the edge.
theorem opening_last {t u : Token} {Y : List Token} (balanced : Balanced 0 [t, u]) :
    ((ahead 1 (t :: u :: Y)).getD (.ending 0 0 false [])).isMark "(" = false := by
  rw [ahead]
  cases closes : t.closes with
  | true => rfl
  | false =>
    refine eq_false_of_ne_true fun opening => ?_
    have opens : u.opens = true := isMark_opens opening
    cases opens' : t.opens with
    | true =>
      have left := (balanced_opens opens).mp ((balanced_opens opens').mp balanced)
      cases left
    | false =>
      have left := (balanced_opens opens).mp ((balanced_plain opens' closes).mp balanced)
      cases left

variable (h : Continues g c)

include h

theorem allocated_covers (breaks : Bool) : Covers g c (fun _ => breaks = true) (allocated breaks) := by
  unfold allocated
  refine Passes.covers (Passes.cut breaks fun b => .ite (Covers.pure ()).passes (Passes.peek fun t => ?_)) ?_
  · exact .ite (enclosed_covers h.windows _ _ _).passes (Covers.pure ()).passes
  · exact Crosses.rest () (by simp [cut]) (by rintro rfl; simp [cut])

theorem closureOrType_covers : Covers g c (SettledForm k) closureOrType := by
  unfold closureOrType
  refine (keyword_covers "func").andThen fun _ => h.params.andThen fun _ => ?_
  have closure : Covers g c (SettledForm k) (block >>= fun _ => pure (.closure, .plain)) :=
    h.block.andThen fun _ => Covers.pure _
  have unsettled : ¬ SettledForm k (.other, .bareType) := nofun
  refine Passes.covers (Passes.peek fun t => .ite closure.passes ?_) ?_
  · refine ((result_covers h false).bind (fun _ => Passes.covers (Passes.peek fun t => ?_) ?_) ?_).passes
    · exact .ite closure.passes (Covers.pure _).passes
    · exact Crosses.rest (.other, .bareType) (by simp) (absurd · unsettled)
    · intro _ stop b rest ran settled
      simp at ran
      obtain ⟨rfl, _⟩ := ran
      exact absurd settled unsettled
  · exact Crosses.rest (.other, .bareType) (by simp [result, cut, startsType]) (absurd · unsettled)

theorem wordOperand_covers (text : String) : Covers g c (SettledForm k) (wordOperand k text) := by
  unfold wordOperand
  refine .ite (closureOrType_covers k h) ?_
  refine .ite (typed_covers k (mapType_covers h false) (fun _ => Covers.pure _) fun _ => Gives.pure rfl) ?_
  refine .ite (typed_covers k (structType_covers h) (fun _ => Covers.pure _) fun _ => Gives.pure rfl) ?_
  refine .ite (typed_covers k (channelType_covers h false) (fun _ => Covers.pure _) fun _ => Gives.pure rfl) ?_
  refine .ite (typed_covers k (interfaceType_covers h) (fun _ => Covers.pure _) fun _ => Gives.pure rfl) ?_
  refine .ite (next_covers.andThen fun _ => ?_) (.ite (takenAs_covers _ _) (takenAs_covers _ _))
  refine (allocated_covers h k.breaks).bind (fun _ => Covers.pure _) fun _ _ b _ _ settled => ?_
  exact settled.1

theorem markOperand_covers (text : String) : Covers g c (SettledForm k) (markOperand text) := by
  unfold markOperand
  refine .ite ((enclosed_covers h.windows _ _ _).andThen fun inner => .ite (Covers.pure _) (Covers.pure _)) ?_
  refine .ite ?_ (.ite (typed_covers k (h.typ false) (fun _ => Covers.pure _) fun _ => Gives.pure rfl) Covers.fail)
  refine typed_covers k (arrayType_covers h false true) (fun _ => .ite (Covers.pure _) (Covers.pure _)) fun _ => ?_
  split
  · exact Gives.pure rfl
  · exact Gives.pure rfl

theorem operandStart_covers : Covers g c (SettledForm k) (operandStart k) := by
  refine Passes.covers (Passes.peek fun t => ?_) (operandStart_stuck k).crosses
  split
  · exact (takenAs_covers _ _).passes
  · exact (takenAs_covers _ _).passes
  · exact (takenAs_covers _ _).passes
  · exact (takenAs_covers _ _).passes
  · exact (takenAs_covers _ _).passes
  · exact (takenAs_covers _ _).passes
  · exact (wordOperand_covers k h _).passes
  · exact (markOperand_covers k h _).passes
  · exact Covers.fail.passes

theorem selector_covers {P : Shape × Form → Prop} (form : Form) : Covers g c P (selector form) := by
  unfold selector
  refine (mark_covers ".").andThen fun _ => Passes.covers (Passes.peek fun t => ?_) (Stuck.crosses ?_)
  · refine .ite ((enclosed_covers h.windows "(" ")" (typ false)).andThen fun _ => Covers.pure _).passes ?_
    exact (name_covers.andThen fun _ => Covers.pure _).passes
  · intro stop a rest
    simp [name]

-- A selector has two tokens or more, so that what is looked at behind its dot stands before the edge.
theorem selectorStep_passes {P : Option (Shape × Form) → Prop} (form : Form) : Passes g c P (selectorStep k form) := by
  unfold selectorStep
  refine .ite (Covers.pure _).passes fun X nonempty balanced => ?_
  obtain ⟨t, X, rfl⟩ := List.exists_cons_of_ne_nil nonempty
  let seen (n : Nat) (Y : List Token) : Token := (ahead n (t :: X ++ Y)).getD (.ending 0 0 false [])
  let typeFollows (Y : List Token) : Bool := k.switchHead && (seen 1 Y).isMark "(" && (seen 2 Y).isWord "type"
  let step (Y : List Token) : Rule (Option (Shape × Form)) :=
    if typeFollows Y then pure none else do return some (← selector form)
  intro stop o rest ran
  change (step [g.last]).run g.setting c ⟨t :: X ++ [g.last], stop⟩ = .done (o, rest) at ran
  cases X with
  | nil =>
    have other : (seen 1 [g.last]).isMark "(" = false := by
      cases closes : t.closes with
      | true =>
        simp only [seen, List.singleton_append, ahead, closes, if_true]
        rfl
      | false =>
        simp only [seen, List.singleton_append, ahead, closes]
        exact g.last_isMark "("
    simp only [step, typeFollows, other, Bool.and_false, Bool.false_and] at ran
    obtain ⟨_, _, ran, _⟩ := done_bind.mp ran
    obtain ⟨_, middle, dot, ran⟩ := done_bind.mp ran
    obtain ⟨u, middle', read, checked⟩ := done_bind.mp dot
    obtain ⟨_, _, left, _, _, rfl⟩ := done_next.mp read
    obtain ⟨_, rfl⟩ := done_guard.mp checked
    cases left
    simp [name] at ran
  | cons u X =>
    have first : seen 1 [g.last] = seen 1 (g.next :: g.behind) := rfl
    have same : typeFollows [g.last] = typeFollows (g.next :: g.behind) := by
      cases opening : (seen 1 [g.last]).isMark "(" with
      | false => simp only [typeFollows, ← first, opening, Bool.and_false, Bool.false_and]
      | true =>
        cases X with
        | nil => exact absurd opening (ne_true_of_eq_false (opening_last balanced))
        | cons v X => rfl
    have covers : Covers g c P (step [g.last]) :=
      .ite (Covers.pure _) ((selector_covers h form).andThen fun _ => Covers.pure _)
    have crosses := covers (t :: u :: X) balanced stop o rest ran
    rw [show step [g.last] = step (g.next :: g.behind) by simp only [step, same]] at crosses
    exact crosses

theorem callStep_covers {P : Option (Shape × Form) → Prop} (form : Form) : Covers g c P (callStep form) := by
  unfold callStep
  refine .ite ((Covers.guard (P := fun _ => True) _).andThen fun _ => ?_) ?_
  · exact (enclosed_covers h.windows _ _ _).andThen fun _ => Covers.pure _
  · exact (enclosed_covers h.windows _ _ _).andThen fun _ => Covers.pure _

theorem indexStep_covers {P : Option (Shape × Form) → Prop} (form : Form) : Covers g c P (indexStep form) := by
  unfold indexStep
  refine .ite (Covers.pure _) ((enclosed_covers h.windows _ _ _).andThen fun typed => ?_)
  dsimp only
  refine .ite (Passes.covers (Passes.peek fun t => ?_) (Stuck.crosses fun stop a rest => by simp [guardThat])) (Covers.pure _)
  exact ((Covers.guard (P := fun _ => True) _).andThen fun _ => Covers.pure _).passes

theorem literalStep_covers {P : Option (Shape × Form) → Prop} (form : Form) : Covers g c P (literalStep k form) := by
  unfold literalStep
  exact .ite (h.literal.andThen fun _ => Covers.pure _) (Covers.pure _)

theorem operandStep_passes {P : Option (Shape × Form) → Prop} (now : Shape × Form) :
    Passes g c P (operandStep k now) := by
  unfold operandStep
  refine Passes.cut k.breaks fun broken => .ite (Covers.pure _).passes (Passes.peek fun t => ?_)
  refine .ite (selectorStep_passes k h _) (.ite (callStep_covers h _).passes ?_)
  exact .ite (indexStep_covers h _).passes (.ite (literalStep_covers k h _).passes (Covers.pure _).passes)

theorem operand_covers : Covers g c (fun o => Settled k o.isType) (operand k) := by
  unfold operand
  refine Passes.covers (Passes.peek fun t => ?_) (Stuck.crosses (Stuck.peek (operandStart_stuck k).bind))
  have needs : ∀ found stop (o : Operand) rest,
      (Rule.stop >>= fun behind => pure (⟨if found.2.isType then .bareType else found.1, t.start, behind⟩ : Operand) :
        Rule Operand).run g.setting c ⟨[g.last], stop⟩ = .done (o, rest) → Settled k o.isType → SettledForm k found := by
    rintro ⟨shape, form⟩ stop o rest ran ⟨breaks, plain⟩
    obtain ⟨behind, middle, _, gave⟩ := done_bind.mp ran
    obtain ⟨rfl, _⟩ := done_give.mp gave
    refine ⟨breaks, ?_⟩
    cases isType : form.isType with
    | false => rfl
    | true => simp [isType, Operand.isType] at plain
  refine ((operandStart_covers k h).bind (fun first => ?_) ?_).passes
  · refine (Covers.loop first (fun now => operandStep_passes k h now) (operandStep_ends k)).bind ?_ needs
    exact fun _ => Covers.stop.andThen fun _ => Covers.pure _
  · intro first stop o rest ran settled
    obtain ⟨found, middle, looped, ran⟩ := done_bind.mp ran
    obtain ⟨rfl, rfl⟩ := (operandStep_ends k first).loop looped
    exact needs found stop o rest ran settled

end Operands

section Expressions

theorem unaryMark_passes {P : Option String → Prop} : Passes g c P unaryMark :=
  Passes.split unaryPairs <| Passes.peek fun _ =>
    .ite (next_covers.andThen fun _ => Covers.pure _).passes (Covers.pure _).passes

theorem run_unaryMark_last (stop : Nat) :
    unaryMark.run g.setting c ⟨[g.last], stop⟩ = .done (none, ⟨[g.last], stop⟩) := by
  simp [unaryMark]

theorem unaryStep_passes {P : Option (List String) → Prop} (ops : List String) : Passes g c P (unaryStep ops) := by
  unfold unaryStep
  refine unaryMark_passes.andThen fun found => ?_
  split
  · exact Covers.pure _
  · exact Covers.pure _

theorem unaryStep_ends (ops : List String) : Ends g c False (unaryStep ops) where
  short := by
    unfold unaryStep
    simp [run_unaryMark_last]
  long := nofun

variable (k : Context) (h : Continues g c) (plain : k.types = false)

include plain

theorem run_receivingChannel {s : Setting} (input : Input) :
    (receivingChannel k).run s c input = .done (none, input) := by
  unfold receivingChannel
  change (if (k.types && _ && _) = true then _ else _ : Rule (Option Operand)).run s c input = _
  rw [plain]
  rfl

omit plain

theorem operand_stuck : Stuck g c (operand k) := Stuck.peek (operandStart_stuck k).bind

theorem prefixed_stuck (start : Nat) : Stuck g c (prefixed k start) := by
  intro stop o rest ran
  obtain ⟨ops, middle, looped, ran⟩ := done_bind.mp ran
  obtain ⟨rfl, rfl⟩ := (unaryStep_ends []).loop looped
  exact (operand_stuck k).bind stop o rest ran

include h

-- Operators are followed by an operand, so that none of them is the last token of a text.
theorem prefixed_covers (start : Nat) : Covers g c (fun o => Settled k o.isType) (prefixed k start) := by
  unfold prefixed
  refine (Covers.loop [] (fun ops => unaryStep_passes ops) unaryStep_ends).before (fun ops => ?_) fun ops => (operand_stuck k).bind
  refine (operand_covers k h).bind (fun o => ?_) fun o stop b rest ran settled => ⟨settled.1, ?_⟩
  · exact .ite (Covers.pure _) (.ite ((Covers.guard (P := fun _ => True) _).andThen fun _ => Covers.pure _) (Covers.pure _))
  · cases isType : o.isType with
    | false => rfl
    | true =>
      have typed : b.isType = true := by
        rw [if_pos isType] at ran
        split at ran
        · rw [(done_give.mp ran).1, isType]
        · obtain ⟨_, _, _, gave⟩ := done_bind.mp ran
          rw [(done_give.mp gave).1]
          rfl
      rw [typed] at settled
      exact nomatch settled.2

omit h

theorem run_peekAt_last (n : Nat) (stop : Nat) : (peekAt n).run g.setting c ⟨[g.last], stop⟩ =
    .done (g.setting.sees ((ahead n [g.last]).getD (.ending 0 0 false [])), ⟨[g.last], stop⟩) := rfl

theorem unary_stuck : Stuck g c (unary k) := by
  refine Stuck.peek fun stop o rest ran => ?_
  obtain ⟨found, middle, looked, ran⟩ := done_bind.mp ran
  simp [receivingChannel, run_peekAt_last] at looked
  obtain ⟨rfl, rfl⟩ := looked
  exact prefixed_stuck k _ stop o rest ran

include h plain

theorem unary_covers : Covers g c (fun o => Settled k o.isType) (unary k) := by
  refine Passes.covers (Passes.peek fun t => ?_) (unary_stuck k).crosses
  refine ((prefixed_covers k h t.start).congr fun input => ?_).passes
  rw [run_bind, run_receivingChannel k plain]
  rfl

theorem binaryOperand_passes (now : Operand) :
    Passes g c (fun o => Settled k (o.getD now).isType) (binaryOperand k now) := by
  unfold binaryOperand
  refine Passes.peek fun t => .ite (next_covers.andThen fun _ => ?_).passes (Covers.pure _).passes
  refine (unary_covers k h plain).bind (fun o => (Covers.guard (P := fun _ => True) _).andThen fun _ => Covers.pure _) ?_
  intro o stop b rest ran settled
  obtain ⟨_, _, checked, _⟩ := done_bind.mp ran
  exact ⟨settled.1, by simpa using (done_guard.mp checked).1⟩

theorem binaryStep_passes (now : Operand) :
    Passes g c (fun o => Settled k (o.getD now).isType) (binaryStep k now) := by
  unfold binaryStep
  refine Passes.cut k.breaks fun broken => .ite (Covers.pure _).passes ?_
  dsimp only
  exact .ite (binaryOperand_passes k h plain now) (Passes.split binaryPairs (binaryOperand_passes k h plain now))

omit h plain

theorem binaryStep_ends (now : Operand) : Ends g c (Settled k now.isType) (binaryStep k now) where
  short := by simp [binaryStep, binaryOperand, cut]
  long := by
    rintro ⟨breaks, _⟩
    simp [binaryStep, cut, breaks]

include h plain

theorem exprRule_covers : Covers g c (fun o => Settled k o.isType) (exprRule k) := by
  unfold exprRule
  refine (unary_covers k h plain).bind (fun first => .ite (Covers.pure _) ?_) fun first stop o rest ran settled => ?_
  · exact Covers.loop first (fun now => binaryStep_passes k h plain now) (binaryStep_ends k)
  · split at ran
    · rw [(done_give.mp ran).1] at settled
      exact settled
    · rw [((binaryStep_ends k first).loop ran).1] at settled
      exact settled

theorem expression_covers : Covers g c (fun _ => k.breaks = true) (expression k) := by
  unfold expression
  refine (h.expr k plain).bind (fun o => (Covers.guard (P := fun _ => True) _).andThen fun _ => Covers.pure _) ?_
  intro o stop b rest ran breaks
  obtain ⟨_, _, checked, _⟩ := done_bind.mp ran
  exact ⟨breaks, by simpa using (done_guard.mp checked).1⟩

end Expressions

end CallAtlas.Go.Grammar
