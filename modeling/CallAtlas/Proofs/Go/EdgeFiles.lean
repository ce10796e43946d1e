import CallAtlas.Proofs.Go.EdgeStatements

namespace CallAtlas.Go.Grammar

open Rule

variable {g : Edge} {c : Calls}

theorem packageClause_firm : Firm g c (fun _ => True) packageClause :=
  (keyword_firm "package").andThen fun _ => name_covers.andThen fun _ => Covers.pure _

theorem importSpec_firm : Firm g c (fun _ => True) importSpec := by
  have path (givenName : Option String) : Firm g c (fun _ => True) (next >>= fun path =>
      guardThat path.isString >>= fun _ => pure ⟨givenName, path.text⟩ : Rule ImportSpec) :=
    next_firm.andThen fun _ => (Covers.guard (P := fun _ => True) _).andThen fun _ => Covers.pure _
  unfold importSpec
  exact Firm.peek fun t => .ite (next_firm.andThen fun _ => (path _).covers) (Firm.after (Covers.pure (P := fun _ => True) none) path)

variable (h : Continues g c)

include h

theorem importDeclaration_firm : Firm g c (fun _ => True) importDeclaration := by
  refine (keyword_firm "import").andThen fun _ => (Firm.peek fun t => ?_).covers
  exact .ite (enclosed_firm h.windows _ _ _) (importSpec_firm.andThen fun _ => Covers.pure _)

theorem functionDeclaration_covers (name : String) (isMethod : Bool) :
    Covers g c (fun _ => True) (functionDeclaration name isMethod) := by
  have ending (start behind : Nat) : Covers g c (fun _ => True)
      (Rule.stop >>= fun stop => pure (.function ⟨name, stop, start, behind, isMethod⟩) : Rule Item) :=
    (Covers.stop (P := fun _ => True)).andThen fun _ => Covers.pure _
  have body (start behind : Nat) : Covers g c (fun _ => True) (peek >>= fun body =>
      if (body.isMark "\x7b" && !body.newline) = true then
        block >>= fun _ => Rule.stop >>= fun stop => pure (.function ⟨name, stop, start, behind, isMethod⟩)
      else Rule.stop >>= fun stop => pure (.function ⟨name, stop, start, behind, isMethod⟩) : Rule Item) := by
    refine Passes.covers (Passes.peek fun t => .ite (h.block.andThen fun _ => ending start behind).passes
      (ending start behind).passes) ?_
    exact Crosses.look (by simp) (by simp) (ending start behind [] rfl)
  have list : Firm g c (fun _ => True) (peek >>= fun first => params >>= fun _ => Rule.stop >>= fun behind =>
      result true >>= fun _ => peek >>= fun body =>
        if (body.isMark "\x7b" && !body.newline) = true then
          block >>= fun _ => Rule.stop >>= fun stop => pure (.function ⟨name, stop, first.start, behind, isMethod⟩)
        else Rule.stop >>= fun stop => pure (.function ⟨name, stop, first.start, behind, isMethod⟩) : Rule Item) := by
    refine Firm.peek fun first => Firm.andThen ⟨h.params, h.stuck .params⟩ fun _ => ?_
    refine (Covers.stop (P := fun _ => True)).andThen fun behind => ?_
    exact (result_covers h true).bind (fun _ => body first.start behind) fun _ _ _ _ _ _ => rfl
  unfold functionDeclaration
  dsimp only
  exact (Firm.peek fun t => .ite ((enclosed_firm h.windows _ _ _).andThen fun _ => list.covers) list).covers

omit h

def Flat (ts : List Token) : Prop := ∀ t ∈ ts, t.opens = false

theorem flat_kept : Kept Flat := by
  refine Kept.each (fun t plain => plain) fun t u _ member plain => ?_
  rcases halves_eq t with same | ⟨a, b, _, same, first, second⟩
  · rw [same] at member
    cases List.mem_singleton.mp member
    exact plain
  · rw [same] at member
    rcases List.mem_cons.mp member with rfl | member
    · exact (single_iff.mp first).2.2.1
    · cases List.mem_singleton.mp member
      exact (single_iff.mp second).2.2.1

variable {s : Setting}

theorem Flat.unmarked {ts : List Token} (flat : Flat ts) {text : String} (bracket : text ∈ ["(", "[", "\x7b"]) :
    (s.sees ((ahead 0 ts).getD (.ending 0 0 false []))).isMark text = false := by
  cases ts with
  | nil => rfl
  | cons t more =>
    have plain : t.opens = false := flat t List.mem_cons_self
    exact List.any_eq_false.mp plain text bracket |> eq_false_of_ne_true

-- Behind the parameters of these tokens nothing opens.
def Bare (s : Setting) (ts : List Token) : Prop :=
  ∀ depth stop a rest, calls s depth .params ⟨ts, stop⟩ = .done (a, rest) → Flat rest.tokens

section Bare

variable {t : Token} {more : List Token} {stop : Nat} {rest : Input} (bare : Bare s more) (func : t.isWord "func" = true)

theorem isWord_iff {text : String} : t.isWord text = true ↔ t.kind = .word ∧ t.text = text := by
  simp [Token.isWord]

include bare

theorem closureOrType_bare {depth : Nat} {found : Shape × Form}
    (ran : closureOrType.run s (calls s depth) ⟨t :: more, stop⟩ = .done (found, rest)) :
    found.2 = .bareType ∧ Flat rest.tokens := by
  have keeps := calls_kept flat_kept s depth
  obtain ⟨_, first, read, ran⟩ := done_bind.mp ran
  obtain ⟨_, _, read, checked⟩ := done_bind.mp read
  obtain ⟨_, _, left, _, _, rfl⟩ := done_next.mp read
  obtain ⟨_, rfl⟩ := done_guard.mp checked
  cases left
  obtain ⟨_, behind, listed, ran⟩ := done_bind.mp ran
  have flat : Flat behind.tokens := bare depth _ _ _ listed
  obtain ⟨u, _, looked, ran⟩ := done_bind.mp ran
  obtain ⟨rfl, rfl⟩ := done_peekAt.mp looked
  rw [if_neg (by simp [flat.unmarked])] at ran
  obtain ⟨_, further, typed, ran⟩ := done_bind.mp ran
  have flat' : Flat further.tokens := run_kept flat_kept keeps _ flat typed
  obtain ⟨v, _, looked, ran⟩ := done_bind.mp ran
  obtain ⟨rfl, rfl⟩ := done_peekAt.mp looked
  rw [if_neg (by simp [flat'.unmarked])] at ran
  obtain ⟨rfl, rfl⟩ := done_give.mp ran
  exact ⟨rfl, flat'⟩

omit bare in
theorem operandStep_flat {k : Context} {input : Input} (flat : Flat input.tokens) (shape : Shape) (c : Calls) :
    (operandStep k (shape, .bareType)).run s c input = .done (none, input) := by
  have plain : ∀ text ∈ ["(", "[", "\x7b"], (s.sees ((ahead 0 input.tokens).getD (.ending 0 0 false []))).isMark text = false :=
    fun _ bracket => flat.unmarked bracket
  have round := plain "(" (by decide)
  have brace := plain "\x7b" (by decide)
  have square := plain "[" (by decide)
  have look : peek.run s c input = .done (s.sees ((ahead 0 input.tokens).getD (.ending 0 0 false [])), input) := rfl
  simp [operandStep, selectorStep, cut, Form.isType, look, round, brace, square]

include func

theorem operand_bare {k : Context} {depth : Nat} {o : Operand}
    (ran : (operand k).run s (calls s depth) ⟨t :: more, stop⟩ = .done (o, rest)) : o.isType = true := by
  obtain ⟨_, _, looked, ran⟩ := done_bind.mp ran
  obtain ⟨_, rfl⟩ := done_peekAt.mp looked
  obtain ⟨⟨shape, form⟩, behind, started, ran⟩ := done_bind.mp ran
  obtain ⟨u, _, looked, started⟩ := done_bind.mp started
  obtain ⟨rfl, rfl⟩ := done_peekAt.mp looked
  have started : closureOrType.run s (calls s depth) ⟨t :: more, stop⟩ = .done ((shape, form), behind) := by
    obtain ⟨kind, text⟩ := isWord_iff.mp func
    simpa [ahead, Setting.sees, kind, text, wordOperand] using started
  obtain ⟨rfl, flat⟩ := closureOrType_bare bare started
  obtain ⟨found, middle, looped, ran⟩ := done_bind.mp ran
  have declined := loop_declined (operandStep_flat (s := s) (k := k) flat shape (calls s depth))
  rw [declined] at looped
  cases looped
  obtain ⟨_, _, _, gave⟩ := done_bind.mp ran
  rw [(done_give.mp gave).1]
  rfl

theorem prefixed_bare {k : Context} {depth start : Nat} {o : Operand}
    (ran : (prefixed k start).run s (calls s depth) ⟨t :: more, stop⟩ = .done (o, rest)) : o.isType = true := by
  have kind : t.kind = .word := (isWord_iff.mp func).1
  have declined : (unaryStep []).run s (calls s depth) ⟨t :: more, stop⟩ = .done (none, ⟨t :: more, stop⟩) := by
    have mark (text : String) : t.isMark text = false := by simp [Token.isMark, kind]
    simp [unaryStep, unaryMark, run_split, unaryPairs, mark, Setting.sees_kind, kind]
  obtain ⟨ops, _, looped, ran⟩ := done_bind.mp ran
  rw [loop_declined declined] at looped
  cases looped
  obtain ⟨o', _, ran, gave⟩ := done_bind.mp ran
  obtain ⟨rfl, _⟩ := done_give.mp gave
  exact operand_bare bare func ran

theorem exprRule_bare {k : Context} {depth : Nat} {o : Operand}
    (ran : (exprRule k).run s (calls s depth) ⟨t :: more, stop⟩ = .done (o, rest)) : o.isType = true := by
  have kind : t.kind = .word := (isWord_iff.mp func).1
  obtain ⟨first, _, read, ran⟩ := done_bind.mp ran
  have isType : first.isType = true := by
    obtain ⟨u, _, looked, read⟩ := done_bind.mp read
    obtain ⟨rfl, rfl⟩ := done_peekAt.mp looked
    have none : (receivingChannel k).run s (calls s depth) ⟨t :: more, stop⟩ = .done (none, ⟨t :: more, stop⟩) := by
      have mark (text : String) : (s.sees t).isMark text = false := by simp [Token.isMark, Setting.sees_kind, kind]
      have look : (peekAt 1).run s (calls s depth) ⟨t :: more, stop⟩ =
        .done (s.sees ((ahead 1 (t :: more)).getD (.ending 0 0 false [])), ⟨t :: more, stop⟩) := rfl
      simp [receivingChannel, look, mark]
    obtain ⟨found, _, looked, read⟩ := done_bind.mp read
    rw [none] at looked
    cases looked
    exact prefixed_bare bare func read
  rw [if_pos isType] at ran
  rw [(done_give.mp ran).1]
  exact isType

theorem expression_bare {k : Context} {depth : Nat} {o : Operand}
    (ran : (expression k).run s (calls s depth) ⟨t :: more, stop⟩ = .done (o, rest)) : False := by
  obtain ⟨found, _, read, ran⟩ := done_bind.mp ran
  have isType : found.isType = true := by
    cases depth with
    | zero => cases read
    | succ depth => exact exprRule_bare bare func read
  obtain ⟨_, _, checked, _⟩ := done_bind.mp ran
  rw [isType] at checked
  cases (done_guard.mp checked).1

theorem statement_bare {depth : Nat} {a : Bool} (ran : (statement false).run s (calls s depth) ⟨t :: more, stop⟩ = .done (a, rest)) :
    False := by
  obtain ⟨kind, text⟩ := isWord_iff.mp func
  cases depth with
  | zero => cases ran
  | succ depth =>
    change (statementRule false).run s (calls s depth) ⟨t :: more, stop⟩ = .done (a, rest) at ran
    have mark (text : String) : (s.sees t).isMark text = false := by simp [Token.isMark, Setting.sees_kind, kind]
    have look : (peekAt 1).run s (calls s depth) ⟨t :: more, stop⟩ =
      .done (s.sees ((ahead 1 (t :: more)).getD (.ending 0 0 false [])), ⟨t :: more, stop⟩) := rfl
    have word : (s.sees t).text = "func" := text
    simp [statementRule, wordStatement, mark, look, Setting.sees_kind, kind, word, declarationWords, operandWords, typeWords] at ran
    obtain ⟨_, ran, _⟩ := Attempt.bind_done.mp ran
    obtain ⟨_, _, head, _⟩ := done_bind.mp ran
    obtain ⟨_, _, first, _⟩ := done_bind.mp head
    exact expression_bare bare func first

end Bare

theorem balanced_word {t : Token} {d : Nat} {X : List Token} (word : t.kind = .word) :
    Balanced d (t :: X) ↔ Balanced d X := by
  refine balanced_plain ?_ ?_
  · simp [Token.opens, Token.isMark, word]
  · simp [Token.closes, Token.isMark, word]

theorem word_single {t : Token} (word : t.kind = .word) : t.single = true := by
  simp [Token.single, Token.opens, Token.closes, Token.isMark, word]

theorem run_name {c : Calls} (t : Token) (more : List Token) (stop : Nat) :
    name.run s c ⟨t :: more, stop⟩ = if t.kind = .word then .done (s.sees t, ⟨more, t.stop⟩) else .failed := by
  by_cases word : t.kind = .word
  · simp [name, run, Input.take?, word_single word, word, guardThat, Attempt.ofOption, Setting.sees_kind]
  · cases single : t.single with
    | false => simp [name, run, Input.take?, single, word, Attempt.ofOption]
    | true => simp [name, run, Input.take?, single, word, guardThat, Attempt.ofOption, Setting.sees_kind]

theorem run_keyword {c : Calls} {t : Token} {text : String} (word : t.isWord text = true) (more : List Token) (stop : Nat) :
    (keyword text).run s c ⟨t :: more, stop⟩ = .done ((), ⟨more, t.stop⟩) := by
  have single : t.single = true := word_single (isWord_iff.mp word).1
  have word' : (s.sees t).isWord text = true := word
  simp [keyword, run, Input.take?, single, word', guardThat, Attempt.ofOption]

-- A name does not depend on what follows it.
theorem name_alike {c : Calls} {t : Token} {X Z Z' : List Token} {stop : Nat} :
    Alike (fun V => V = X ∧ t.kind = .word) Z Z' (name.run s c ⟨t :: X ++ Z, stop⟩) (name.run s c ⟨t :: X ++ Z', stop⟩) := by
  rw [List.cons_append, List.cons_append, run_name, run_name]
  split
  · exact .done (W := fun V => V = X ∧ t.kind = .word) _ t.stop ⟨rfl, ‹_›⟩
  · exact .failed

-- The name of a method, behind its receiver.
def methodName : Rule (String × Bool) := do
  let n ← name
  guardThat (!typeWords.contains n.text && (← peek).isMark "(")
  return (n.text, true)

theorem functionHead_eq : functionHead = keyword "func" >>= fun _ => peek >>= fun t =>
    if t.isMark "(" = true then params >>= fun _ => methodName else name >>= fun n => pure (n.text, false) := rfl

-- Two tokens tell the name of a method. Fewer tell none, and they open nothing.
theorem methodName_edge (g : Edge) {c : Calls} {V : List Token} (balanced : Balanced 0 V) :
    (Flat (V ++ [g.last]) ∧ ∀ stop a rest, methodName.run g.setting c ⟨V ++ [g.last], stop⟩ ≠ .done (a, rest)) ∨
    ∀ stop, Alike (Balanced 0) [g.last] (g.next :: g.behind) (methodName.run g.setting c ⟨V ++ [g.last], stop⟩)
      (methodName.run g.setting c ⟨V ++ g.next :: g.behind, stop⟩) := by
  have last : g.last.opens = false := by simp [Token.opens, Token.isMark, g.eof]
  rcases V with _ | ⟨v, _ | ⟨w, V⟩⟩
  case nil =>
    refine .inl ⟨fun t member => ?_, fun stop a rest => ?_⟩
    · cases List.mem_singleton.mp member
      exact last
    · exact name_stuck.bind stop a rest
  case cons.nil =>
    have plain : v.opens = false := by
      refine eq_false_of_ne_true fun opens => ?_
      cases (balanced_opens opens).mp balanced
    refine .inl ⟨fun t member => ?_, fun stop a rest ran => ?_⟩
    · rcases List.mem_cons.mp member with rfl | member
      · exact plain
      · cases List.mem_singleton.mp member
        exact last
    · rw [methodName, run_bind, List.singleton_append, run_name] at ran
      split at ran
      · simp [guardThat] at ran
      · cases ran
  case cons.cons =>
    refine .inr fun stop => name_alike.bind fun n rest stop here => ?_
    obtain ⟨rfl, word⟩ := here
    have left : Balanced 0 (w :: V) := (balanced_word word).mp balanced
    change Alike _ _ _ ((guardThat (!typeWords.contains n.text && w.isMark "(") >>= fun _ => pure (n.text, true)).run _ _ _)
      ((guardThat (!typeWords.contains n.text && w.isMark "(") >>= fun _ => pure (n.text, true)).run _ _ _)
    cases !typeWords.contains n.text && w.isMark "(" with
    | true => exact .done _ stop left
    | false => exact .failed

-- The parameters at the beginning of balanced tokens end where their bracket does, at any depth.
theorem params_group {t : Token} {X : List Token} (opens : t.opens = true) (balanced : Balanced 0 (t :: X)) :
    ∃ V, Balanced 0 V ∧ ∀ s depth stop Z Z', Alike (· = V) Z Z' (params.run s (calls s depth) ⟨t :: X ++ Z, stop⟩)
      (params.run s (calls s depth) ⟨t :: X ++ Z', stop⟩) := by
  obtain ⟨V, left, group⟩ := enclosed_group opens balanced
  refine ⟨V, left, fun s depth stop Z Z' => ?_⟩
  cases depth with
  | zero => exact .starved
  | succ depth => exact group _ (calls_local s depth) s "(" ")" _ stop Z Z'

theorem functionHead_edge (g : Edge) (depth : Nat) {t : Token} {X : List Token} (func : t.isWord "func" = true)
    (balanced : Balanced 0 (t :: X)) (stop : Nat) :
    (Bare g.setting (X ++ [g.last]) ∧
      ∀ a rest, functionHead.run g.setting (calls g.setting depth) ⟨t :: X ++ [g.last], stop⟩ ≠ .done (a, rest)) ∨
    Alike (Balanced 0) [g.last] (g.next :: g.behind)
      (functionHead.run g.setting (calls g.setting depth) ⟨t :: X ++ [g.last], stop⟩)
      (functionHead.run g.setting (calls g.setting depth) ⟨t :: X ++ g.next :: g.behind, stop⟩) := by
  obtain ⟨kind, text⟩ := isWord_iff.mp func
  have balanced : Balanced 0 X := (balanced_word kind).mp balanced
  have begin (Y : List Token) : functionHead.run g.setting (calls g.setting depth) ⟨t :: Y, stop⟩ =
      (peek >>= fun t => if t.isMark "(" = true then params >>= fun _ => methodName
        else name >>= fun n => pure (n.text, false)).run g.setting (calls g.setting depth) ⟨Y, t.stop⟩ := by
    rw [functionHead_eq, run_bind, run_keyword func]
    rfl
  rw [List.cons_append, List.cons_append, begin, begin]
  cases X with
  | nil =>
    refine .inl ⟨fun depth stop a rest ran => ?_, fun a rest ran => ?_⟩
    · cases depth with
      | zero => cases ran
      | succ depth => exact absurd ran (enclosed_stuck (g := g) "(" ")" _ stop a rest)
    · simp [name] at ran
  | cons u X =>
    rw [List.cons_append, List.cons_append, run_bind, run_bind, run_peek, run_peek, bind_done, bind_done]
    cases paren : (g.setting.sees u).isMark "(" with
    | false =>
      refine .inr (name_alike.bind fun n V stop here => ?_)
      obtain ⟨rfl, word⟩ := here
      exact .done _ stop ((balanced_word word).mp balanced)
    | true =>
      obtain ⟨V, left, group⟩ := params_group (t := u) (isMark_opens paren) balanced
      simp only [if_true]
      have ends {depth stop : Nat} {a : Unit} {rest : Input}
          (ran : params.run g.setting (calls g.setting depth) ⟨u :: X ++ [g.last], stop⟩ = .done (a, rest)) :
          ∃ stop', rest = ⟨V ++ [g.last], stop'⟩ := by
        have same := group g.setting depth stop [g.last] [g.last]
        rw [ran] at same
        cases same with
        | done a stop' here => exact ⟨stop', by rw [here]⟩
      rcases methodName_edge g (c := calls g.setting depth) left with ⟨flat, stuck⟩ | same
      · refine .inl ⟨fun depth stop a rest ran => ?_, fun a rest ran => ?_⟩
        · obtain ⟨stop', rfl⟩ := ends ran
          exact flat
        · obtain ⟨_, middle, listed, ran⟩ := done_bind.mp ran
          obtain ⟨stop', rfl⟩ := ends listed
          exact stuck stop' a rest ran
      · rw [run_bind, run_bind, ← List.cons_append, ← List.cons_append]
        refine .inr ((group g.setting depth t.stop _ _).bind fun _ V' stop here => ?_)
        subst here
        exact same stop

theorem headed_crosses {g : Edge} {depth : Nat} {t : Token} {X : List Token} (func : t.isWord "func" = true)
    (balanced : Balanced 0 (t :: X)) {Q : β → Prop} {f : Option (String × Bool) → Rule β} {k : Bool → Rule β}
    (declared : ∀ name isMethod, Covers g (calls g.setting depth) Q (f (some (name, isMethod))))
    (other : f none = statement false >>= k) (stated : Covers g (calls g.setting depth) Q (statement false >>= k)) :
    Crosses g (calls g.setting depth) Q (orTry (functionHead >>= fun head => pure (some head)) (pure none) >>= f)
      (t :: X) := by
  intro stop b rest ran
  rcases functionHead_edge g depth func balanced stop with ⟨bare, failed⟩ | same
  · obtain ⟨head, middle, tried, ran⟩ := done_bind.mp ran
    rcases done_orTry.mp tried with read | ⟨_, read⟩
    · obtain ⟨a, _, read, _⟩ := done_bind.mp read
      exact absurd read (failed a _)
    · obtain ⟨rfl, rfl⟩ := done_give.mp read
      rw [other] at ran
      obtain ⟨_, _, ran, _⟩ := done_bind.mp ran
      exact (statement_bare bare func ran).elim
  · rw [run_bind, run, run_bind] at ran ⊢
    generalize functionHead.run g.setting (calls g.setting depth) ⟨t :: X ++ [g.last], stop⟩ = short at same ran
    generalize functionHead.run g.setting (calls g.setting depth) ⟨t :: X ++ g.next :: g.behind, stop⟩ = long at same ⊢
    cases same with
    | done head stop' left =>
      obtain ⟨X', stop', here, balanced', _, further⟩ := declared head.1 head.2 _ left stop' b rest ran
      exact ⟨X', stop', here, balanced', fun empty => absurd empty (List.cons_ne_nil _ _), further⟩
    | failed => exact (other ▸ stated) (t :: X) balanced stop b rest ran
    | starved => cases ran

-- What stands at the top of a file.
theorem topLevel_passes (g : Edge) (depth : Nat) : Passes g (calls g.setting depth) (fun _ => True) topLevel := by
  have h := calls_continue g depth
  have statement : Covers g (calls g.setting depth) (fun _ => True)
      (statement false >>= fun ended => pure (.statement, ended) : Rule (Item × Bool)) :=
    h.statement.andThen fun _ => Covers.pure _
  intro X nonempty balanced
  obtain ⟨t, X, rfl⟩ := List.exists_cons_of_ne_nil nonempty
  refine Crosses.peek ?_
  refine Crosses.ite (fun _ => ?_) fun _ => Crosses.ite (fun _ => ?_) fun _ => Crosses.ite (fun func => ?_) fun _ => ?_
  · exact (packageClause_firm.andThen fun _ => Covers.pure _).covers _ balanced
  · exact ((importDeclaration_firm h).andThen fun _ => Covers.pure _).covers _ balanced
  · exact headed_crosses (t := t) func balanced
      (fun name isMethod => (functionDeclaration_covers h name isMethod).andThen fun _ => Covers.pure _) rfl statement
  · exact Covers.ite (((declaration_firm h).andThen fun _ => Covers.pure _).covers) statement _ balanced

end CallAtlas.Go.Grammar
