import CallAtlas.Proofs.Go.EdgeOperands
import CallAtlas.Proofs.Go.Progress

namespace CallAtlas.Go.Grammar

open Rule

variable {g : Edge} {c : Calls} (h : Continues g c)

theorem tries_last (opening closing : String) (inner : Rule Unit) (stop : Nat) :
    (tries (enclosed opening closing inner)).run g.setting c ⟨[g.last], stop⟩ = .done (false, ⟨[g.last], stop⟩) := by
  rw [tries, run, run_bind, enclosed_last]
  rfl

section Lists

variable (k : Context) (plain : k.types = false)

include h

theorem expression_stuck : Stuck g c (expression k) := (h.stuck _).bind

include plain

theorem expressionList_covers : Covers g c (fun _ => k.breaks = true) (expressionList k) := by
  unfold expressionList
  refine (expression_covers k h plain).bind (fun first => Covers.loop _ (fun values => ?_) fun values => ?_)
    fun _ _ _ _ _ settled => settled
  · refine Passes.cut k.breaks fun broken => .ite (Covers.pure _).passes (Passes.peek fun t => ?_)
    refine .ite (next_covers.andThen fun _ => Passes.covers (Passes.peek fun u => ?_) (Stuck.crosses ?_)).passes
      (Covers.pure _).passes
    · exact ((expression_covers k h plain).bind (fun o => Covers.pure _) fun _ _ _ _ _ reached => reached).passes
    · exact Stuck.peek (expression_stuck h k).bind
  · constructor
    · simp [cut]
    · intro breaks
      simp [cut, breaks]

theorem simpleHead_covers : Covers g c (fun _ => k.breaks = true) (simpleHead k) := by
  unfold simpleHead
  have head : ({ k with head := true } : Context).types = false := plain
  refine (expression_covers _ h head).bind (fun first => Covers.loop _ (fun n => ?_) fun n => ?_)
    fun _ _ _ _ _ settled => settled
  · refine Passes.cut k.breaks fun broken => .ite (Covers.pure _).passes (Passes.optMark "," ?_ (Covers.pure _).passes)
    exact (expression_covers _ h rfl).bind (fun o => Covers.pure _) fun _ _ _ _ _ reached => reached
  · constructor
    · simp [cut, optMark]
    · intro breaks
      simp [cut, breaks]

omit plain

theorem simpleTail_covers (count : Nat) : Covers g c (fun _ => k.breaks = true) (simpleTail k count) := by
  unfold simpleTail
  refine Passes.covers (Passes.peek fun t => Passes.cut k.breaks fun broken => ?_) ?_
  · dsimp only
    refine .ite (next_covers.andThen fun _ => ?_).passes ?_
    · exact (expressionList_covers h _ rfl).bind (fun _ => Covers.pure _) fun _ _ _ _ _ reached => reached
    refine .ite Covers.fail.passes (.ite (next_covers.andThen fun _ => Covers.pure _).passes ?_)
    refine .ite (next_covers.andThen fun _ => ?_).passes (Covers.pure _).passes
    exact (expression_covers _ h rfl).bind (fun _ => Covers.pure _) fun _ _ _ _ _ reached => reached
  · by_cases one : count = 1
    · refine Crosses.rest .expression ?_ ?_
      · simp [cut, one]
      · intro breaks
        simp [cut, one, breaks]
    · exact Stuck.crosses fun stop a rest => by simp [cut, one]

include plain

theorem simple_covers : Covers g c (fun _ => k.breaks = true) (simple k) := by
  unfold simple
  exact (simpleHead_covers h k plain).bind (fun count => simpleTail_covers h k count) fun _ _ _ _ _ settled => settled

theorem simple_firm : Firm g c (fun _ => k.breaks = true) (simple k) :=
  ⟨simple_covers h k plain, (expression_stuck h _).bind.bind⟩

end Lists

section Clauses

include h

theorem block_firm : Firm g c (fun _ => True) block := ⟨h.block, h.stuck .block⟩

theorem caseBlock_firm (guard : Rule Unit) : Firm g c (fun _ => True) (caseBlock guard) :=
  enclosed_firm h.windows _ _ _

theorem ifRule_firm : Firm g c (fun _ => True) ifRule := by
  have body : Firm g c (fun _ => True) (block >>= fun _ => peek >>= fun t =>
      if (t.isWord "else" && !t.newline) = true then
        next >>= fun _ => peek >>= fun t => if t.isWord "if" = true then call Nonterminal.ifStatement else block
      else pure () : Rule Unit) := by
    refine (block_firm h).andThen fun _ => Passes.covers (Passes.peek fun t => .ite ?_ (Covers.pure _).passes) ?_
    · refine (next_covers.andThen fun _ => (Firm.peek fun t => Firm.ite ?_ (block_firm h)).covers).passes
      exact ⟨h.ifStatement, h.stuck .ifStatement⟩
    · exact Crosses.rest (α := Unit) () (by simp) (by simp)
  unfold ifRule
  refine (keyword_firm "if").andThen fun _ => (Firm.after (simpleHead_covers h _ rfl) fun count => ?_).covers
  refine Firm.after (simpleTail_covers h _ count) fun ending => Firm.optMark ";" ?_ ?_
  · exact (Firm.after (expression_covers _ h rfl) fun _ => body).covers
  · exact Firm.after (Covers.guard (P := fun _ => True) _) fun _ => body

theorem forClause_covers : Inside g c forClause := by
  unfold forClause
  dsimp only
  have after : Inside g c (mark ";" >>= fun _ => peek >>= fun t =>
      if t.isMark "\x7b" = true then pure () else simple { blockFollows := true } >>= fun _ => pure () : Rule Unit) :=
    (mark_covers ";").inside.bind fun _ => Inside.peek fun t =>
      .ite (Covers.pure _) ((simple_covers h _ rfl).inside.bind fun _ => Covers.pure _)
  refine (mark_covers ";").inside.bind fun _ => Inside.peek fun t => .ite after ?_
  exact (expression_covers _ h rfl).inside.bind fun _ => after

theorem rangeClause_covers : Inside g c rangeClause :=
  (keyword_covers "range").inside.bind fun _ => (expression_covers _ h rfl).inside.bind fun _ => Covers.pure _

theorem forStatement_firm : Firm g c (fun _ => True) forStatement := by
  unfold forStatement
  have body : Firm g c (fun _ => True) block := block_firm h
  have clause : Firm g c (fun _ => True) (forClause >>= fun _ => block) := Firm.after (forClause_covers h) fun _ => body
  have range : Firm g c (fun _ => True) (rangeClause >>= fun _ => block) := Firm.after (rangeClause_covers h) fun _ => body
  refine (keyword_firm "for").andThen fun _ => (Firm.peek fun t => .ite body (.ite range (.ite clause ?_))).covers
  refine Firm.after (simpleHead_covers h _ rfl) fun count => Firm.peek fun t => .ite ?_ ?_
  · refine Firm.after next_covers fun _ => Firm.peek fun t => .ite range ?_
    exact Firm.after (expressionList_covers h _ rfl) fun _ => clause
  · refine Firm.after (simpleTail_covers h _ count) fun ending => Firm.peek fun t => .ite clause ?_
    exact Firm.after (Covers.guard (P := fun _ => True) _) fun _ => body

theorem typeGuard_covers : Inside g c typeGuard := by
  unfold typeGuard
  refine Inside.optMark "." ?_ (Covers.pure _)
  exact (enclosed_covers h.windows "(" ")" (keyword "type")).bind (fun _ => Covers.pure _) fun _ _ _ _ _ => id

theorem switchPart_covers : Inside g c switchPart := by
  unfold switchPart
  have others : Inside g c (loop () fun _ => optMark "," >>= fun more =>
      if more = true then expression {} >>= fun _ => pure (some ()) else pure none) := by
    refine Covers.loop () (fun _ => Passes.optMark "," ?_ (Covers.pure none).passes) fun _ => ⟨?_, False.elim⟩
    · exact (expression_covers _ h rfl).inside.bind fun _ => Covers.pure _
    · simp [optMark]
  refine (simpleHead_covers h _ rfl).inside.bind fun count => (typeGuard_covers h).bind fun guarded => ?_
  refine .ite (Covers.pure _) (Inside.peek fun t => .ite (next_covers.inside.bind fun _ => ?_) ?_)
  · refine (expression_covers _ h rfl).inside.bind fun _ => (typeGuard_covers h).bind fun guarded => ?_
    exact .ite (Covers.pure _) (others.bind fun _ => Covers.pure _)
  · refine (simpleTail_covers h _ count).inside.bind fun ending => ?_
    cases ending with
    | expression => exact Covers.pure _
    | value => exact Covers.pure _
    | mark => exact Covers.pure _

theorem switchStatement_firm : Firm g c (fun _ => True) switchStatement := by
  unfold switchStatement
  have values : Firm g c (fun _ => True) (caseBlock (expressionList {} >>= fun _ => pure ())) := caseBlock_firm h _
  have types : Firm g c (fun _ => True) (caseBlock (commaList false (typ false))) := caseBlock_firm h _
  refine (keyword_firm "switch").andThen fun _ => (Firm.peek fun t => .ite values ?_).covers
  refine Firm.after (switchPart_covers h) fun first => .ite types (Firm.optMark ";" ?_ ?_)
  · refine (Firm.peek fun t => .ite values (Firm.after (switchPart_covers h) fun second => ?_)).covers
    cases second with
    | types => exact types
    | value => exact values
    | statement => exact Firm.fail
  · exact Firm.after (Covers.guard (P := fun _ => True) _) fun _ => values

theorem selectStatement_firm : Firm g c (fun _ => True) selectStatement :=
  (keyword_firm "select").andThen fun _ => (caseBlock_firm h _).covers

theorem grouped_firm {spec : Rule α} (firm : Firm g c (fun _ => True) spec) : Firm g c (fun _ => True) (grouped spec) := by
  unfold grouped
  refine Firm.peek fun t => .ite (enclosed_firm h.windows _ _ _) ?_
  exact firm.andThen fun _ => Covers.pure _

omit h in
theorem names_covers (commas breaks : Bool) : Covers g c (fun _ => breaks = true) (names commas breaks) := by
  unfold names
  refine name_covers.andThen fun first => Covers.loop _ (fun found => ?_) fun found => ?_
  · refine Passes.cut breaks fun broken => .ite (Covers.pure _).passes (Passes.optMark "," ?_ (Covers.pure _).passes)
    exact name_covers.andThen fun n => Covers.pure _
  · constructor
    · simp [cut, optMark]
    · intro breaks
      simp [cut, breaks]

omit h in
theorem names_stuck (commas breaks : Bool) : Stuck g c (names commas breaks) := name_stuck.bind

theorem bound_covers (ns : List String) : Covers g c (fun _ => True)
    (expressionList { breaks := true } >>= fun values => pure ⟨ns, some values⟩ : Rule Binding) :=
  (expressionList_covers h _ rfl).bind (fun _ => Covers.pure _) fun _ _ _ _ _ _ => rfl

theorem constSpec_firm : Firm g c (fun _ => True) constSpec := by
  have bound (ns : List String) : Covers g c (fun _ => True) (mark "=" >>= fun _ =>
      expressionList { breaks := true } >>= fun values => pure ⟨ns, some values⟩ : Rule Binding) :=
    (mark_covers "=").andThen fun _ => bound_covers h ns
  unfold constSpec
  dsimp only
  refine ⟨(names_covers true true).bind (fun ns => ?_) fun _ _ _ _ _ _ => rfl, (names_stuck true true).bind⟩
  refine Passes.covers (Passes.peek fun t => .ite (Covers.pure _).passes (.ite ?_ (Covers.pure _).passes)) ?_
  · exact .ite (bound ns).passes ((h.typ false).before (fun _ => bound ns) fun _ => (mark_stuck "=").bind).passes
  · refine Crosses.rest ⟨ns, none⟩ ?_ ?_
    · simp [startsType]
    · simp

theorem varSpec_firm : Firm g c (fun _ => True) varSpec := by
  unfold varSpec
  refine Firm.after (names_covers false false) fun ns => Firm.optMark "=" (bound_covers h ns) ?_
  refine ⟨(h.typ true).bind (fun _ => ?_) fun _ _ _ _ _ _ => rfl, (h.stuck (.typ true)).bind⟩
  refine Passes.covers (Passes.cut true fun broken => .ite (Covers.pure _).passes ?_) ?_
  · exact Passes.optMark "=" (bound_covers h ns) (Covers.pure _).passes
  · refine Crosses.rest ⟨ns, none⟩ ?_ ?_
    · simp [cut, optMark]
    · simp [cut]

theorem aliased_firm : Firm g c (fun _ => True) aliased := by
  have typed : Firm g c (fun _ => True) (typ true) := ⟨(h.typ true).mono fun _ _ => rfl, h.stuck (.typ true)⟩
  unfold aliased
  exact Firm.optMark "=" typed.covers typed

theorem typeSpec_firm : Firm g c (fun _ => True) typeSpec := by
  have typed : Firm g c (fun _ => True) (typ true) := ⟨(h.typ true).mono fun _ _ => rfl, h.stuck (.typ true)⟩
  have none : Stuck g c (tries typeParameters >>= fun generic => if generic = true then aliased else typ true) := by
    intro stop a rest ran
    rw [run_bind, typeParameters, tries_last] at ran
    exact h.stuck (.typ true) stop a rest ran
  unfold typeSpec
  refine name_firm.andThen fun _ => (Firm.peek fun t => .ite ⟨Passes.covers ?_ ?_, ?_⟩ (aliased_firm h)).covers
  · exact (tries_passes h.windows "[" "]" _).andThen fun generic => .ite (aliased_firm h).covers typed.covers
  · exact none.crosses
  · exact none

theorem declaration_firm : Firm g c (fun _ => True) declaration := by
  unfold declaration
  refine name_firm.andThen fun word => ?_
  have constants := grouped_firm h (constSpec_firm h)
  have bindings := grouped_firm h (varSpec_firm h)
  have types := grouped_firm h (typeSpec_firm h)
  refine (Firm.peek fun t => .ite ?_ (.ite ?_ (.ite ?_ Firm.fail))).covers
  · exact constants.andThen fun _ => Covers.pure _
  · exact bindings.andThen fun _ => Covers.pure _
  · exact types.andThen fun _ => Covers.pure _

omit h in
theorem atListEnd_passes {f : Bool → Rule β} (further : ∀ ends, Passes g c Q (f ends)) :
    Passes g c Q (atListEnd false >>= f) := by
  intro X some balanced
  obtain ⟨t, X, rfl⟩ := List.exists_cons_of_ne_nil some
  exact further (t.isMark "\x7d" || false) (t :: X) some balanced

omit h in
theorem atStatementEnd_covers {f : Bool → Rule β} (yes : f true = pure b) (no : Passes g c Q (f false)) :
    Covers g c Q (atStatementEnd false >>= f) := by
  refine Passes.covers (fun X some balanced => ?_) ?_
  · obtain ⟨t, X, rfl⟩ := List.exists_cons_of_ne_nil some
    have either : ∀ ends, Passes g c Q (f ends) := by
      intro ends
      cases ends with
      | true => exact yes ▸ (Covers.pure b).passes
      | false => exact no
    exact either (t.newline || t.kind == .eof || t.isMark ";" || t.isMark "\x00" || (t.isMark "\x7d" || false)) (t :: X)
      some balanced
  · refine Crosses.rest b ?_ ?_
    · simp [atStatementEnd, atListEnd, yes]
    · simp [atStatementEnd, atListEnd, yes]

-- A label is followed by a colon on its line.
theorem labelled_firm (w : String) : Firm g c (fun _ => True) (peekAt 1 >>= fun after =>
    if (!operandWords.contains w && after.isMark ":" && !after.newline) = true then
      next >>= fun _ => mark ":" >>= fun _ => atListEnd false >>= fun ends =>
        if ends = true then pure false else statement false
    else simple { breaks := true } >>= fun ending => pure (ending == SimpleEnd.value) : Rule Bool) := by
  let labels (after : Token) : Bool := !operandWords.contains w && after.isMark ":" && !after.newline
  let step (label : Bool) : Rule Bool :=
    if label = true then
      next >>= fun _ => mark ":" >>= fun _ => atListEnd false >>= fun ends =>
        if ends = true then pure false else statement false
    else simple { breaks := true } >>= fun ending => pure (ending == SimpleEnd.value)
  have each : ∀ label, Firm g c (fun _ => True) (step label) := by
    intro label
    have listed : Covers g c (fun _ => True) (atListEnd false >>= fun ends =>
        if ends = true then pure false else statement false : Rule Bool) := by
      refine Passes.covers (atListEnd_passes fun ends => .ite (Covers.pure _).passes h.statement.passes) (Stuck.crosses ?_)
      have none : Stuck g c (statement false) := h.stuck (.statement false)
      exact fun stop a rest ran => none stop a rest (by simpa [atListEnd] using ran)
    refine Firm.ite (next_firm.andThen fun _ => (mark_covers ":").andThen fun _ => listed) ?_
    exact ⟨(simple_covers h _ rfl).bind (fun _ => Covers.pure _) fun _ _ _ _ _ _ => rfl, (simple_firm h _ rfl).stuck.bind⟩
  have last : labels (g.setting.sees g.last) = false := by simp [labels]
  have next : labels (g.setting.sees g.next) = false := by simp [labels]
  have same (t : Token) (X : List Token) : labels (g.setting.sees ((ahead 1 (t :: X ++ [g.last])).getD (.ending 0 0 false []))) =
      labels (g.setting.sees ((ahead 1 (t :: X ++ g.next :: g.behind)).getD (.ending 0 0 false []))) := by
    rw [List.cons_append, List.cons_append, ahead, ahead]
    cases t.closes with
    | true => rfl
    | false =>
      cases X with
      | nil => exact last.trans next.symm
      | cons u X => rfl
  refine ⟨fun X balanced => ?_, fun stop a rest => (each _).stuck stop a rest⟩
  cases X with
  | nil => exact Stuck.crosses fun stop a rest => (each _).stuck stop a rest
  | cons t X =>
    have crosses := (each (labels (g.setting.sees ((ahead 1 (t :: X ++ [g.last])).getD (.ending 0 0 false []))))).covers (t :: X) balanced
    intro stop a rest ran
    obtain ⟨X', stop', left, balanced', none, long⟩ := crosses stop a rest ran
    refine ⟨X', stop', left, balanced', none, fun reached => ?_⟩
    rw [same] at long
    exact long reached

theorem wordStatement_firm (t : Token) : Firm g c (fun _ => True) (wordStatement false t) := by
  unfold wordStatement
  dsimp only
  have ended : Firm g c (fun _ => True) (next >>= fun _ => pure false : Rule Bool) :=
    next_firm.andThen fun _ => Covers.pure _
  refine .ite ((declaration_firm h).andThen fun _ => Covers.pure _) (.ite ?returns (.ite ?starts (.ite ?_ ?_)))
  case returns =>
    refine next_firm.andThen fun _ => atStatementEnd_covers rfl ?_
    exact ((expressionList_covers h _ rfl).bind (fun _ => Covers.pure _) fun _ _ _ _ _ _ => rfl).passes
  case starts => exact next_firm.andThen fun _ => (expression_covers _ h rfl).bind (fun _ => Covers.pure _) fun _ _ _ _ _ _ => rfl
  · exact Firm.andThen ⟨h.ifStatement, h.stuck .ifStatement⟩ fun _ => Covers.pure _
  refine .ite ((forStatement_firm h).andThen fun _ => Covers.pure _) ?_
  refine .ite ((switchStatement_firm h).andThen fun _ => Covers.pure _) ?_
  refine .ite ((selectStatement_firm h).andThen fun _ => Covers.pure _) ?_
  refine .ite ended (.ite ?jumps (.ite ?_ (labelled_firm h t.text)))
  case jumps =>
    refine next_firm.andThen fun _ => atStatementEnd_covers rfl ?_
    exact (name_covers.andThen fun _ => Covers.pure _).passes
  · exact next_firm.andThen fun _ => name_covers.andThen fun _ => Covers.pure _

theorem statementRule_firm : Firm g c (fun _ => True) (statementRule false) := by
  unfold statementRule
  refine Firm.peek fun t => .ite ((block_firm h).andThen fun _ => Covers.pure _) ?_
  refine .ite (next_firm.andThen fun _ => Covers.pure _) (.ite (wordStatement_firm h t) ?_)
  refine ⟨(simple_covers h _ rfl).bind (fun _ => Covers.pure _) fun _ _ _ _ _ _ => rfl, (expression_stuck h _).bind.bind.bind⟩

end Clauses

-- The end of a text is not read.
theorem Advances.stuck {r : Rule α} (advances : Advances c (fun _ => True) r) : Stuck g c r := by
  intro stop a rest ran
  have none : weightOf [g.last] = 0 := by simp [weightOf, Token.weight, g.eof]
  have less := advances g.setting _ a rest ran trivial
  rw [none] at less
  exact Nat.not_lt_zero _ less

theorem calls_continue (g : Edge) (depth : Nat) : Continues g (calls g.setting depth) := by
  have stuck : ∀ n, Stuck g (calls g.setting depth) (call n) := fun n => Advances.stuck (calls_advance g.setting depth n)
  have windows := calls_local g.setting depth
  induction depth with
  | zero =>
    have starved (n : Nonterminal) {P : n.Answer → Prop} : Covers g (calls g.setting 0) P (call n) :=
      fun _ _ _ _ _ ran => nomatch ran
    exact
      { windows
        stuck
        expr := fun k _ => starved (.expr k)
        typ := fun breaks => starved (.typ breaks)
        block := starved .block
        params := starved .params
        literal := starved .literal
        statement := starved (.statement false)
        ifStatement := starved .ifStatement }
  | succ depth ih =>
    have h := ih (fun n => Advances.stuck (calls_advance g.setting depth n)) (calls_local g.setting depth)
    exact
      { windows
        stuck
        expr := fun k plain => exprRule_covers k h plain
        typ := fun breaks => typeRule_covers h breaks
        block := enclosed_covers h.windows _ _ _
        params := enclosed_covers h.windows _ _ _
        literal := enclosed_covers h.windows _ _ _
        statement := (statementRule_firm h).covers
        ifStatement := (ifRule_firm h).covers }

end CallAtlas.Go.Grammar
