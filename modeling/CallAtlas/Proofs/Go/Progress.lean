import CallAtlas.Proofs.Go.FunctionNames

namespace CallAtlas.Go

-- How often a token can be read. The end of the text cannot.
def Token.weight (t : Token) : Nat :=
  if t.kind = .eof then 0 else if t.text.toList.length = 2 then 2 else 1

def weightOf : List Token → Nat
  | [] => 0
  | t :: more => t.weight + weightOf more

section Weights

variable {t : Token} {more ts : List Token}

@[simp] theorem weightOf_cons : weightOf (t :: more) = t.weight + weightOf more := rfl

@[simp] theorem weightOf_append : weightOf (ts ++ more) = weightOf ts + weightOf more := by
  induction ts with
  | nil => exact (Nat.zero_add _).symm
  | cons t rest ih => rw [List.cons_append, weightOf_cons, weightOf_cons, ih, Nat.add_assoc]

theorem weight_le (t : Token) : t.weight ≤ 2 := by
  unfold Token.weight
  split
  · omega
  · split <;> omega

theorem weightOf_le (ts : List Token) : weightOf ts ≤ 2 * ts.length := by
  induction ts with
  | nil => exact Nat.le_refl 0
  | cons t more ih =>
    have one := weight_le t
    rw [weightOf_cons, List.length_cons]
    omega

theorem weight_pos (other : t.kind ≠ .eof) : 0 < t.weight := by
  unfold Token.weight
  rw [if_neg other]
  split <;> omega

theorem weight_half {a : Char} (mark : t.kind = .mark) (text : t.text = String.singleton a) : t.weight = 1 := by
  have size : t.text.toList.length = 1 := by simp [text]
  unfold Token.weight
  rw [if_neg (by rw [mark]; nofun), if_neg (by rw [size]; nofun)]

theorem weightOf_halves (mark : t.kind = .mark) : weightOf (halves t) = t.weight := by
  rcases Rule.halves_eq t with same | ⟨a, b, text, same, _⟩
  · rw [same]
    rfl
  · have whole : t.weight = 2 := by
      unfold Token.weight
      rw [if_neg (by rw [mark]; nofun), if_pos (by rw [text]; rfl)]
    have first : (firstHalf t a).weight = 1 := weight_half rfl rfl
    have second : (secondHalf t a b).weight = 1 := weight_half rfl rfl
    rw [same, whole, weightOf_cons, weightOf_cons, first, second]
    rfl

end Weights

namespace Rule

theorem weight_kept (n : Nat) : Kept (weightOf · ≤ n) where
  tail t more given := Nat.le_trans (Nat.le_add_left _ _) given
  newline t more given := given
  halves t more mark given := by
    rw [weightOf_append, weightOf_halves mark]
    exact given

-- A rule that leaves less to read than it found where it gives such an answer.
def Advances (c : Calls) (P : α → Prop) (r : Rule α) : Prop :=
  ∀ s input a rest, r.run s c input = .done (a, rest) → P a → weightOf rest.tokens < weightOf input.tokens

def Lasting (c : Calls) : Prop := ∀ n, Keeps (weightOf · ≤ n) c

theorem run_lasting {c : Calls} (lasting : Lasting c) (r : Rule α) {s : Setting} {input rest : Input} {a : α}
    (ran : r.run s c input = .done (a, rest)) : weightOf rest.tokens ≤ weightOf input.tokens :=
  run_kept (weight_kept _) (lasting _) r (Nat.le_refl _) ran

section Calculus

variable {c : Calls} (lasting : Lasting c) {P : α → Prop} {Q : β → Prop} {x : Rule α} {f : α → Rule β}

include lasting

theorem Advances.bind (first : Advances c P x) (further : ∀ a, ¬ P a → Advances c Q (f a)) : Advances c Q (x >>= f) := by
  intro s input b rest ran answer
  obtain ⟨a, middle, ran, ran'⟩ := done_bind.mp ran
  have one := run_lasting lasting x ran
  have other := run_lasting lasting (f a) ran'
  by_cases here : P a
  · exact Nat.lt_of_le_of_lt other (first s input a middle ran here)
  · exact Nat.lt_of_lt_of_le (further a here s middle b rest ran' answer) one

theorem Advances.andThen (first : Advances c (fun _ => True) x) : Advances c Q (x >>= f) :=
  first.bind lasting fun _ other => absurd trivial other

theorem Advances.after (further : ∀ a, Advances c Q (f a)) : Advances c Q (x >>= f) :=
  Advances.bind (P := fun _ => False) lasting (fun _ _ _ _ _ => False.elim) fun a _ => further a

omit lasting

theorem Advances.mono {P' : α → Prop} (advances : Advances c P x) (weaker : ∀ a, P' a → P a) : Advances c P' x :=
  fun s input a rest ran answer => advances s input a rest ran (weaker a answer)

theorem Advances.not_given {a : α} (other : ¬ P a) : Advances c P (Pure.pure a) := by
  intro s input b rest ran answer
  obtain ⟨rfl, _⟩ := done_give.mp ran
  exact absurd answer other

theorem Advances.fail : Advances c P (fail : Rule α) := fun _ _ _ _ ran => nomatch ran

theorem Advances.ite {b : Prop} [Decidable b] {y : Rule α} (yes : Advances c P x) (no : Advances c P y) :
    Advances c P (if b then x else y) := by
  split
  · exact yes
  · exact no

theorem Advances.orTry {y : Rule α} (one : Advances c P x) (other : Advances c P y) : Advances c P (orTry x y) := by
  intro s input a rest ran
  rcases done_orTry.mp ran with ran | ⟨_, ran⟩
  · exact one s input a rest ran
  · exact other s input a rest ran

theorem next_advances {P : Token → Prop} : Advances c P next := by
  intro s input t rest ran _
  obtain ⟨u, more, ahead, single, _, rfl⟩ := done_next.mp ran
  have pos : 0 < u.weight := weight_pos (single_iff.mp single).1
  rw [ahead, weightOf_cons]
  exact Nat.lt_add_of_pos_left pos

include lasting

theorem name_advances {P : Token → Prop} : Advances c P name := next_advances.andThen lasting

theorem keyword_advances {P : Unit → Prop} (text : String) : Advances c P (keyword text) := next_advances.andThen lasting

theorem enclosed_advances (opening closing : String) (inner : Rule α) : Advances c P (enclosed opening closing inner) := by
  intro s input a rest ran _
  obtain ⟨t, more, u, behind, stop, ahead, opens, inside, _, rfl⟩ := done_enclosed.mp ran
  rw [Bool.and_eq_true] at opens
  have pos : 0 < t.weight := weight_pos (by rw [isMark_kind opens.1]; nofun)
  have left := run_lasting lasting inner inside
  rw [weightOf_cons] at left
  rw [ahead, weightOf_cons]
  exact Nat.lt_of_le_of_lt (Nat.le_trans (Nat.le_add_left _ _) left) (Nat.lt_add_of_pos_left pos)

end Calculus

end Rule

namespace Grammar

open Rule

variable {c : Calls} (lasting : Lasting c) (each : ∀ (n : Nonterminal) {P : n.Answer → Prop}, Advances c P (call n))

section Types

include lasting

theorem functionType_advances {P : Unit → Prop} (breaks : Bool) : Advances c P (functionType breaks) :=
  (keyword_advances lasting _).andThen lasting

theorem mapType_advances {P : Unit → Prop} (breaks : Bool) : Advances c P (mapType breaks) :=
  (keyword_advances lasting _).andThen lasting

theorem structType_advances {P : Unit → Prop} : Advances c P structType :=
  (keyword_advances lasting _).andThen lasting

theorem interfaceType_advances {P : Unit → Prop} : Advances c P interfaceType :=
  (keyword_advances lasting _).andThen lasting

theorem arrayType_advances {P : Bool → Prop} (breaks implied : Bool) : Advances c P (arrayType breaks implied) :=
  (enclosed_advances lasting _ _ _).andThen lasting

theorem channelType_advances {P : Unit → Prop} (breaks : Bool) : Advances c P (channelType breaks) :=
  Advances.after lasting fun _ =>
    .ite ((keyword_advances lasting _).andThen lasting) ((keyword_advances lasting _).andThen lasting)

theorem typeRule_advances {P : Unit → Prop} (breaks : Bool) : Advances c P (typeRule breaks) := by
  refine Advances.after lasting fun t => .ite (functionType_advances lasting breaks) ?_
  refine .ite (mapType_advances lasting breaks) (.ite (channelType_advances lasting breaks) ?_)
  refine .ite (structType_advances lasting) (.ite (interfaceType_advances lasting) ?_)
  refine .ite (next_advances.andThen lasting) (.ite (next_advances.andThen lasting) ?_)
  exact .ite (enclosed_advances lasting _ _ _) ((arrayType_advances lasting breaks false).andThen lasting)

end Types

section Expressions

include lasting

theorem takenAs_advances {P : Shape × Form → Prop} (shape : Shape) (form : Form) : Advances c P (takenAs shape form) :=
  next_advances.andThen lasting

theorem closureOrType_advances {P : Shape × Form → Prop} : Advances c P closureOrType :=
  (keyword_advances lasting _).andThen lasting

theorem wordOperand_advances {P : Shape × Form → Prop} (k : Context) (text : String) : Advances c P (wordOperand k text) := by
  refine .ite (closureOrType_advances lasting) (.ite ((mapType_advances lasting _).andThen lasting) ?_)
  refine .ite ((structType_advances lasting).andThen lasting) (.ite ((channelType_advances lasting _).andThen lasting) ?_)
  refine .ite ((interfaceType_advances lasting).andThen lasting) (.ite (next_advances.andThen lasting) ?_)
  exact .ite (takenAs_advances lasting _ _) (takenAs_advances lasting _ _)

include each

theorem markOperand_advances {P : Shape × Form → Prop} (text : String) : Advances c P (markOperand text) := by
  refine .ite ((enclosed_advances lasting _ _ _).andThen lasting) (.ite ((arrayType_advances lasting _ _).andThen lasting) ?_)
  exact .ite ((each (.typ false)).andThen lasting) Advances.fail

theorem operandStart_advances {P : Shape × Form → Prop} (k : Context) : Advances c P (operandStart k) := by
  refine Advances.after lasting fun t => ?_
  split
  · exact takenAs_advances lasting _ _
  · exact takenAs_advances lasting _ _
  · exact takenAs_advances lasting _ _
  · exact takenAs_advances lasting _ _
  · exact takenAs_advances lasting _ _
  · exact takenAs_advances lasting _ _
  · exact wordOperand_advances lasting k _
  · exact markOperand_advances lasting each _
  · exact Advances.fail

theorem prefixed_advances {P : Operand → Prop} (k : Context) (start : Nat) : Advances c P (prefixed k start) := by
  have operand : Advances c (fun _ => True) (operand k) :=
    Advances.after lasting fun _ => (operandStart_advances lasting each k).andThen lasting
  exact Advances.after lasting fun _ => operand.andThen lasting

omit each

theorem receivingChannel_advances (k : Context) : Advances c (· ≠ none) (receivingChannel k) := by
  refine Advances.after lasting fun _ => Advances.after lasting fun _ => .ite ?_ (Advances.not_given (absurd rfl))
  refine Advances.after lasting fun _ => Advances.orTry ?_ (Advances.not_given (absurd rfl))
  exact (channelType_advances lasting false).andThen lasting

include each

theorem exprRule_advances {P : Operand → Prop} (k : Context) : Advances c P (exprRule k) := by
  have unary : Advances c (fun _ => True) (unary k) := by
    refine Advances.after lasting fun t => (receivingChannel_advances lasting k).bind lasting fun found none => ?_
    cases found with
    | some o => exact absurd nofun none
    | none => exact prefixed_advances lasting each k _
  exact unary.andThen lasting

end Expressions

section Statements

include lasting each

theorem simple_advances {P : SimpleEnd → Prop} (k : Context) : Advances c P (simple k) := by
  have first (k : Context) : Advances c (fun _ => True) (expression k) := (each (.expr k)).andThen lasting
  have head : Advances c (fun _ => True) (simpleHead k) := (first _).andThen lasting
  exact head.andThen lasting

omit each

theorem declaration_advances {P : Declared → Prop} : Advances c P declaration := (name_advances lasting).andThen lasting

include each

theorem wordStatement_advances {P : Bool → Prop} (inCase : Bool) (t : Token) : Advances c P (wordStatement inCase t) := by
  unfold wordStatement
  dsimp only
  refine .ite ((declaration_advances lasting).andThen lasting) (.ite (next_advances.andThen lasting) ?_)
  refine .ite (next_advances.andThen lasting) (.ite ((each .ifStatement).andThen lasting) ?_)
  refine .ite (Advances.andThen lasting ((keyword_advances lasting _).andThen lasting)) ?_
  refine .ite (Advances.andThen lasting ((keyword_advances lasting _).andThen lasting)) ?_
  refine .ite (Advances.andThen lasting ((keyword_advances lasting _).andThen lasting)) ?_
  refine .ite (next_advances.andThen lasting) (.ite (next_advances.andThen lasting) (.ite (next_advances.andThen lasting) ?_))
  refine Advances.after lasting fun after => .ite (next_advances.andThen lasting) ?_
  exact (simple_advances lasting each _).andThen lasting

theorem statementRule_advances {P : Bool → Prop} (inCase : Bool) : Advances c P (statementRule inCase) := by
  refine Advances.after lasting fun t => .ite ((each .block).andThen lasting) (.ite (next_advances.andThen lasting) ?_)
  exact .ite (wordStatement_advances lasting each inCase t) ((simple_advances lasting each _).andThen lasting)

end Statements

theorem calls_lasting (s : Setting) (depth : Nat) : Lasting (calls s depth) := fun n => calls_kept (weight_kept n) s depth

-- Whatever is called by name reads a token.
theorem calls_advance (s : Setting) (depth : Nat) :
    ∀ (n : Nonterminal) {P : n.Answer → Prop}, Advances (calls s depth) P (call n) := by
  induction depth with
  | zero => exact fun _ _ _ _ _ _ ran => nomatch ran
  | succ depth ih =>
    have lasting := calls_lasting s depth
    have ruled : ∀ (n : Nonterminal) {P : n.Answer → Prop}, Advances (calls s depth) P n.rule := by
      intro n P
      cases n with
      | expr k => exact exprRule_advances lasting ih k
      | typ breaks => exact typeRule_advances lasting breaks
      | block => exact enclosed_advances lasting _ _ _
      | params => exact enclosed_advances lasting _ _ _
      | literal => exact enclosed_advances lasting _ _ _
      | statement inCase => exact statementRule_advances lasting ih inCase
      | ifStatement => exact (keyword_advances lasting _).andThen lasting
    exact fun n P _ input a rest ran answer => ruled n s input a rest ran answer

section Files

include lasting each

theorem topLevel_advances {P : Item × Bool → Prop} : Advances c P topLevel := by
  have statement : Advances c P (statement false >>= fun ended => pure (.statement, ended)) :=
    (each (.statement false)).andThen lasting
  refine Advances.after lasting fun t => .ite ?_ (.ite ?_ (.ite ?_ (.ite ?_ statement)))
  · exact Advances.andThen lasting ((keyword_advances lasting _).andThen lasting)
  · exact Advances.andThen lasting ((keyword_advances lasting _).andThen lasting)
  · have head : Advances c (· ≠ none) (orTry (do return some (← functionHead)) (pure none)) := by
      refine Advances.orTry (Advances.andThen lasting ?_) (Advances.not_given (absurd rfl))
      exact (keyword_advances lasting _).andThen lasting
    refine head.bind lasting fun found none => ?_
    cases found with
    | some f => exact absurd nofun none
    | none => exact statement
  · exact (declaration_advances lasting).andThen lasting

theorem entry_advances {P : Item → Prop} : Advances c P entry :=
  (topLevel_advances lasting each).andThen lasting

end Files

theorem runItem_advances {t : Token} {more : List Token} {item : Item} {rest : Input}
    (ran : runItem entry (t :: more) = .done (item, rest)) : weightOf rest.tokens < weightOf (t :: more) :=
  entry_advances (P := fun _ => True) (calls_lasting _ _) (calls_advance _ _) _ _ _ _ ran trivial

theorem items_length {n : Nat} {ts : List Token} {placed : List Placed} (read : items n ts = some placed) :
    placed.length ≤ weightOf ts := by
  induction n generalizing ts placed with
  | zero => cases read
  | succ n ih =>
    cases ts with
    | nil => cases read
    | cons t more =>
      rcases items_cons read with ⟨_, rfl⟩ | ⟨item, rest, others, ran, further, rfl, _⟩
      · exact Nat.zero_le _
      · exact Nat.succ_le_of_lt (Nat.lt_of_le_of_lt (ih further) (runItem_advances ran))

-- The room that a file is read in is enough.
theorem items_enough {n m : Nat} {ts : List Token} (enough : weightOf ts < n) (enough' : weightOf ts < m) :
    items n ts = items m ts := by
  induction n generalizing m ts with
  | zero => exact absurd enough (Nat.not_lt_zero _)
  | succ n ih =>
    obtain ⟨m, rfl⟩ := Nat.exists_eq_succ_of_ne_zero (Nat.ne_of_gt (Nat.zero_lt_of_lt enough'))
    cases ts with
    | nil => rfl
    | cons t more =>
      rw [items, items]
      split
      · rfl
      · cases ran : runItem entry (t :: more) with
        | failed => rfl
        | starved => rfl
        | done r =>
          obtain ⟨item, further⟩ := r
          have left := runItem_advances ran
          dsimp only
          rw [ih (Nat.lt_of_lt_of_le left (Nat.le_of_lt_succ enough)) (Nat.lt_of_lt_of_le left (Nat.le_of_lt_succ enough'))]

theorem itemRoom_enough (ts : List Token) : weightOf ts < itemRoom ts := by
  have bound := weightOf_le ts
  unfold itemRoom
  omega

end Grammar

end CallAtlas.Go
