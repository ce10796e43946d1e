import CallAtlas.Proofs.Go.FunctionNames
import CallAtlas.Proofs.Go.Spelling

namespace CallAtlas.Go

open CallAtlas.Text

namespace Grammar

open Rule

def Shape.literal? : Shape → Option TokenKind
  | .interpreted => some .interpreted
  | .raw => some .raw
  | .integer => some .integer
  | .float => some .float
  | _ => none

def Operand.FromToken (source : String) (start : Nat) (o : Operand) : Prop :=
  ∀ kind, o.shape.literal? = some kind →
    ∃ t ∈ tokens source, t.kind = kind ∧ start ≤ t.start ∧ o.start = t.start - start ∧ o.stop = t.stop - start

def FromText (source : String) (start : Nat) (ts : List Token) : Prop :=
  ∀ u ∈ ts, start ≤ u.start ∧
    (u.kind = .mark ∨ ∃ t ∈ tokens source, t.kind = u.kind ∧ t.start = u.start ∧ t.stop = u.stop)

theorem fromText_kept (source : String) (start : Nat) : Kept (FromText source start) := by
  refine Kept.each (fun t given => given) fun t u _ member whole => ?_
  rcases halves_mark member with rfl | ⟨mark, after⟩
  · exact whole
  · exact ⟨Nat.le_trans whole.1 after, .inl mark⟩

section Reading

variable {source : String} {s : Setting} {c : Calls} {input rest : Input}

-- What a rule answers when it reads tokens of the text.
def Reads (source : String) (s : Setting) (c : Calls) (P : α → Prop) (r : Rule α) : Prop :=
  ∀ input a rest, FromText source s.start input.tokens → r.run s c input = .done (a, rest) → P a

structure Sound (source : String) (s : Setting) (c : Calls) : Prop where
  keeps : Keeps (FromText source s.start) c
  reads : ∀ context, Reads source s c (Operand.FromToken source s.start) (expr context)

theorem Reads.of_gives {P : α → Prop} {r : Rule α} (gives : Gives P r) : Reads source s c P r :=
  Answers.of_gives gives

theorem Reads.bind {P : α → Prop} {Q : β → Prop} {x : Rule α} {f : α → Rule β}
    (keeps : Keeps (FromText source s.start) c) (first : Reads source s c P x)
    (second : ∀ a, P a → Reads source s c Q (f a)) : Reads source s c Q (x >>= f) :=
  Answers.bind (fromText_kept _ _).carried keeps first second

theorem Reads.after {Q : β → Prop} {x : Rule α} {f : α → Rule β} (keeps : Keeps (FromText source s.start) c)
    (second : ∀ a, Reads source s c Q (f a)) : Reads source s c Q (x >>= f) :=
  Answers.after (fromText_kept _ _).carried keeps second

theorem Reads.pure {P : α → Prop} {a : α} (given : P a) : Reads source s c P (Pure.pure a) :=
  Answers.pure given

theorem Reads.loop {P : α → Prop} {step : α → Rule (Option α)} {a : α} (keeps : Keeps (FromText source s.start) c)
    (given : P a) (kept : ∀ a, P a → Reads source s c (∀ b ∈ ·, P b) (step a)) :
    Reads source s c P (loop a step) :=
  Answers.loop (fromText_kept _ _).carried keeps given kept

theorem Reads.enclosed {P : α → Prop} {opening closing : String} {inner : Rule α} (given : Reads source s c P inner) :
    Reads source s c P (enclosed opening closing inner) :=
  Answers.enclosed (fromText_kept _ _).carried given

def NoLiteral (found : Shape × Form) : Prop := found.1.literal? = none

theorem closureOrType_gives : Gives NoLiteral closureOrType := by
  unfold closureOrType
  refine Gives.after fun _ => Gives.after fun _ => Gives.after fun t => ?_
  split
  · exact Gives.after fun _ => Gives.pure rfl
  · refine Gives.after fun _ => Gives.after fun t => ?_
    split
    · exact Gives.after fun _ => Gives.pure rfl
    · exact Gives.pure rfl

theorem takenAs_gives {shape : Shape} {form : Form} (other : shape.literal? = none) :
    Gives NoLiteral (takenAs shape form) :=
  Gives.after fun _ => Gives.pure other

theorem wordOperand_gives (context : Context) (text : String) : Gives NoLiteral (wordOperand context text) := by
  unfold wordOperand
  split
  · exact closureOrType_gives
  split
  · exact Gives.after fun _ => Gives.pure rfl
  split
  · exact Gives.after fun _ => Gives.pure rfl
  split
  · exact Gives.after fun _ => Gives.pure rfl
  split
  · exact Gives.after fun _ => Gives.pure rfl
  split
  · exact Gives.after fun _ => Gives.after fun _ => Gives.pure rfl
  split
  · exact takenAs_gives rfl
  · exact takenAs_gives rfl

theorem markOperand_gives (text : String) : Gives NoLiteral (markOperand text) := by
  unfold markOperand
  split
  · refine Gives.after fun _ => ?_
    split <;> exact Gives.pure rfl
  split
  · refine Gives.after fun _ => ?_
    split <;> exact Gives.pure rfl
  split
  · exact Gives.after fun _ => Gives.pure rfl
  · exact fun _ _ _ _ _ ran => nomatch ran

theorem takenAs_read {shape : Shape} {form : Form} {found : Shape × Form} {kind : TokenKind}
    (ran : (takenAs shape form).run s c input = .done (found, rest))
    (same : (s.sees ((ahead 0 input.tokens).getD (.ending 0 0 false []))).kind = kind) :
    ∃ u more, input.tokens = u :: more ∧ u.kind = kind ∧ rest.stop = u.stop := by
  obtain ⟨t, _, took, gave⟩ := done_bind.mp ran
  obtain ⟨u, more, ahead, _, rfl, rfl⟩ := done_next.mp took
  obtain ⟨rfl, rfl⟩ := done_give.mp gave
  rw [ahead] at same
  exact ⟨u, more, ahead, same, rfl⟩

theorem operandStart_read {context : Context} {found : Shape × Form} {kind : TokenKind}
    (ran : (operandStart context).run s c input = .done (found, rest)) (literal : found.1.literal? = some kind) :
    ∃ u more, input.tokens = u :: more ∧ u.kind = kind ∧ rest.stop = u.stop := by
  unfold operandStart at ran
  obtain ⟨t, input, looked, ran⟩ := done_bind.mp ran
  obtain ⟨rfl, rfl⟩ := done_peekAt.mp looked
  have other : ∀ {r : Rule (Shape × Form)}, Gives NoLiteral r → ¬ r.run s c input = .done (found, rest) := by
    intro r gives ran
    have shape : found.1.literal? = none := gives _ _ _ _ _ ran
    rw [shape] at literal
    cases literal
  have token : ∀ {shape : Shape} {form : Form}, (takenAs shape form).run s c input = .done (found, rest) →
      shape.literal? = some kind := by
    intro shape form ran
    obtain ⟨_, _, _, gave⟩ := done_bind.mp ran
    rwa [(done_give.mp gave).1] at literal
  split at ran
  · rename_i same
    cases token ran
    exact takenAs_read ran same
  · rename_i same
    cases token ran
    exact takenAs_read ran same
  · exact absurd ran (other (takenAs_gives rfl))
  · exact absurd ran (other (takenAs_gives rfl))
  · rename_i same
    cases token ran
    exact takenAs_read ran same
  · rename_i same
    cases token ran
    exact takenAs_read ran same
  · exact absurd ran (other (wordOperand_gives _ _))
  · exact absurd ran (other (markOperand_gives _))
  · cases ran

-- A rule that only looks ahead.
def Looks (r : Rule α) : Prop := ∀ s c input a rest, r.run s c input = .done (a, rest) → rest = input

-- A rule that reads nothing if it declines.
def Declines (r : Rule (Option α)) : Prop := ∀ s c input rest, r.run s c input = .done (none, rest) → rest = input

theorem peekAt_looks (n : Nat) : Looks (peekAt n) := fun _ _ _ _ _ ran => (done_peekAt.mp ran).2

theorem cut_looks (breaks : Bool) : Looks (cut breaks) := by
  intro s c input a rest ran
  obtain ⟨t, middle, looked, gave⟩ := done_bind.mp ran
  rw [(done_give.mp gave).2, (done_peekAt.mp looked).2]

theorem Declines.bind {x : Rule α} {f : α → Rule (Option β)} (looks : Looks x) (declines : ∀ a, Declines (f a)) :
    Declines (x >>= f) := by
  intro s c input rest ran
  obtain ⟨a, middle, looked, ran⟩ := done_bind.mp ran
  rw [declines a s c middle rest ran, looks s c input a middle looked]

theorem Declines.nothing : Declines (Pure.pure none : Rule (Option α)) := fun _ _ _ _ ran => (done_give.mp ran).2

-- What a step makes of an operand is no literal.
def Steps (r : Rule (Option (Shape × Form))) : Prop := Declines r ∧ Gives (∀ now ∈ ·, NoLiteral now) r

theorem Steps.nothing : Steps (Pure.pure none) := ⟨Declines.nothing, Gives.pure nofun⟩

theorem Steps.look {x : Rule α} {f : α → Rule (Option (Shape × Form))} (looks : Looks x) (steps : ∀ a, Steps (f a)) :
    Steps (x >>= f) :=
  ⟨Declines.bind looks fun a => (steps a).1, Gives.after fun a => (steps a).2⟩

theorem Steps.made {r : Rule (Option (Shape × Form))}
    (gives : Gives (fun made => ∃ now, made = some now ∧ NoLiteral now) r) : Steps r := by
  constructor
  · intro s c input rest ran
    obtain ⟨_, made, _⟩ := gives _ _ _ _ _ ran
    cases made
  · intro s c input a rest ran now member
    obtain ⟨_, rfl, other⟩ := gives _ _ _ _ _ ran
    cases member
    exact other

theorem selector_gives (form : Form) : Gives NoLiteral (selector form) := by
  unfold selector
  refine Gives.after fun _ => Gives.after fun t => ?_
  split
  · exact Gives.after fun _ => Gives.pure rfl
  · exact Gives.after fun _ => Gives.pure rfl

theorem selectorStep_steps (context : Context) (form : Form) : Steps (selectorStep context form) := by
  unfold selectorStep
  split
  · exact Steps.nothing
  refine Steps.look (peekAt_looks 1) fun t => Steps.look (peekAt_looks 2) fun t => ?_
  split
  · exact Steps.nothing
  · exact Steps.made ((selector_gives form).bind fun now other => Gives.pure ⟨now, rfl, other⟩)

theorem callStep_steps (form : Form) : Steps (callStep form) := by
  refine Steps.made ?_
  unfold callStep
  split
  · exact Gives.after fun _ => Gives.after fun _ => Gives.pure ⟨_, rfl, rfl⟩
  · exact Gives.after fun _ => Gives.pure ⟨_, rfl, rfl⟩

theorem indexStep_steps (form : Form) : Steps (indexStep form) := by
  unfold indexStep
  split
  · exact Steps.nothing
  refine Steps.made (Gives.after fun typed => ?_)
  dsimp only
  split
  · exact Gives.after fun _ => Gives.after fun _ => Gives.pure ⟨_, rfl, rfl⟩
  · exact Gives.pure ⟨_, rfl, rfl⟩

theorem literalStep_steps (context : Context) (form : Form) : Steps (literalStep context form) := by
  unfold literalStep
  dsimp only
  split
  · exact Steps.made (Gives.after fun _ => Gives.pure ⟨_, rfl, rfl⟩)
  · exact Steps.nothing

theorem operandStep_steps (context : Context) (now : Shape × Form) : Steps (operandStep context now) := by
  unfold operandStep
  refine Steps.look (cut_looks _) fun broken => ?_
  split
  · exact Steps.nothing
  refine Steps.look (peekAt_looks 0) fun t => ?_
  split
  · exact selectorStep_steps _ _
  split
  · exact callStep_steps _
  split
  · exact indexStep_steps _
  split
  · exact literalStep_steps _ _
  · exact Steps.nothing

-- A literal is an operand without steps.
theorem operand_reads (context : Context) : Reads source s c (Operand.FromToken source s.start) (operand context) := by
  intro input o rest given ran
  unfold operand at ran
  obtain ⟨t, input, looked, ran⟩ := done_bind.mp ran
  obtain ⟨rfl, rfl⟩ := done_peekAt.mp looked
  obtain ⟨first, middle, started, ran⟩ := done_bind.mp ran
  obtain ⟨⟨shape, form⟩, behind, looped, ran⟩ := done_bind.mp ran
  obtain ⟨stop, _, stopped, gave⟩ := done_bind.mp ran
  obtain ⟨rfl, rfl⟩ := done_stop.mp stopped
  obtain ⟨rfl, rfl⟩ := done_give.mp gave
  intro kind literal
  replace literal : shape.literal? = some kind := by
    dsimp only at literal
    split at literal
    · cases literal
    · exact literal
  let P (now : Shape × Form) (here : Input) : Prop :=
    now.1.literal? = some kind → ∃ u more, input.tokens = u :: more ∧ u.kind = kind ∧ here.stop = u.stop
  have each : ∀ now here now' there, P now here →
      (operandStep context now).run s c here = .done (some now', there) → P now' there := by
    intro now here now' there _ ran literal
    have other : now'.1.literal? = none := (operandStep_steps context now).2 _ _ _ _ _ ran now' rfl
    rw [other] at literal
    cases literal
  obtain ⟨here, found, declined⟩ := done_loop (P := P) each (fun literal => operandStart_read started literal) looped
  obtain rfl := (operandStep_steps context (shape, form)).1 _ _ _ _ declined
  obtain ⟨u, more, ahead, same, stopped⟩ := found literal
  obtain ⟨after, mark | ⟨t, member, kindOf, start, stop⟩⟩ := given u (ahead ▸ List.mem_cons_self)
  · rw [mark] at same
    subst same
    cases shape <;> cases literal
  · refine ⟨t, member, kindOf.trans same, start ▸ after, ?_, ?_⟩
    · rw [ahead, start]
      rfl
    · rw [stopped, stop]

theorem receivingChannel_gives (context : Context) :
    Gives (∀ o ∈ ·, o.shape.literal? = none) (receivingChannel context) := by
  unfold receivingChannel
  refine Gives.after fun _ => Gives.after fun _ => ?_
  split
  · refine Gives.after fun _ => Gives.orTry ?_ (Gives.pure nofun)
    refine Gives.after fun _ => Gives.after fun _ => Gives.after fun _ => Gives.after fun _ => Gives.pure ?_
    intro o same
    cases same
    rfl
  · exact Gives.pure nofun

theorem fromToken_of_none {o : Operand} {start : Nat} (other : o.shape.literal? = none) : o.FromToken source start := by
  intro kind literal
  rw [other] at literal
  cases literal

theorem prefixed_reads (keeps : Keeps (FromText source s.start) c) (context : Context) (start : Nat) :
    Reads source s c (Operand.FromToken source s.start) (prefixed context start) := by
  unfold prefixed
  refine Reads.after keeps fun ops => Reads.bind keeps (operand_reads context) fun o read => ?_
  split
  · exact Reads.pure read
  split
  · exact Reads.after keeps fun _ => Reads.pure (fromToken_of_none rfl)
  · exact Reads.pure (fromToken_of_none rfl)

theorem unary_reads (keeps : Keeps (FromText source s.start) c) (context : Context) :
    Reads source s c (Operand.FromToken source s.start) (unary context) := by
  unfold unary
  refine Reads.after keeps fun t => Reads.bind keeps (Reads.of_gives (receivingChannel_gives _)) fun found other => ?_
  cases found with
  | some o => exact Reads.pure (fromToken_of_none (other o rfl))
  | none => exact prefixed_reads keeps context t.start

theorem binaryOperand_gives (context : Context) (now : Operand) :
    Gives (∀ o ∈ ·, o.shape.literal? = none) (binaryOperand context now) := by
  unfold binaryOperand
  refine Gives.after fun t => ?_
  split
  · refine Gives.after fun _ => Gives.after fun _ => Gives.after fun _ => Gives.pure ?_
    intro o same
    cases same
    rfl
  · exact Gives.pure nofun

theorem binaryStep_gives (context : Context) (now : Operand) :
    Gives (∀ o ∈ ·, o.shape.literal? = none) (binaryStep context now) := by
  unfold binaryStep
  refine Gives.after fun broken => ?_
  split
  · exact Gives.pure nofun
  dsimp only
  split
  · exact binaryOperand_gives context now
  · exact Gives.after fun _ => binaryOperand_gives context now

theorem exprRule_reads (keeps : Keeps (FromText source s.start) c) (context : Context) :
    Reads source s c (Operand.FromToken source s.start) (exprRule context) := by
  unfold exprRule
  refine Reads.bind keeps (unary_reads keeps context) fun first read => ?_
  split
  · exact Reads.pure read
  · refine Reads.loop keeps read fun now _ => Reads.of_gives ?_
    intro s c input made rest ran o member
    exact fromToken_of_none (binaryStep_gives context now s c input made rest ran o member)

theorem calls_sound (source : String) (s : Setting) (depth : Nat) : Sound source s (calls s depth) := by
  refine ⟨calls_kept (fromText_kept _ _) s depth, fun context input o rest given ran => ?_⟩
  cases depth with
  | zero => cases ran
  | succ depth => exact exprRule_reads (calls_kept (fromText_kept _ _) s depth) context input o rest given ran

variable (sound : Sound source s c)
include sound

theorem expression_reads (context : Context) : Reads source s c (Operand.FromToken source s.start) (expression context) :=
  Reads.bind sound.keeps (sound.reads context) fun _ read => Reads.after sound.keeps fun _ => Reads.pure read

def FromTokens (source : String) (start : Nat) (values : List Value) : Prop :=
  ∀ o, Value.operand o ∈ values → o.FromToken source start

theorem expressionList_reads (context : Context) :
    Reads source s c (FromTokens source s.start) (expressionList context) := by
  have keeps := sound.keeps
  unfold expressionList
  refine Reads.bind keeps (expression_reads sound context) fun first read => ?_
  refine Reads.loop keeps ?_ fun values given => ?_
  · intro o member
    cases List.mem_singleton.mp member
    exact read
  refine Reads.after keeps fun broken => ?_
  split
  · exact Reads.pure nofun
  refine Reads.after keeps fun t => ?_
  split
  · refine Reads.after keeps fun _ => Reads.after keeps fun after => ?_
    refine Reads.bind keeps (expression_reads sound context) fun o read => Reads.pure ?_
    intro more same other member
    cases same
    rcases List.mem_append.mp member with member | member
    · rcases List.mem_append.mp member with member | member
      · exact given other member
      · exact absurd (List.eq_of_mem_replicate member) nofun
    · cases List.mem_singleton.mp member
      exact read
  · exact Reads.pure nofun

-- The names that a specification lists are words, with the commas between those of a constant.
def Listed (commas : Bool) (listed : List String) : Prop :=
  ∃ words : List String, words ≠ [] ∧ (∀ w ∈ words, w.toList.all isNamePart = true) ∧
    listed = if commas then words.intersperse "," else words

omit sound in
theorem intersperse_snoc (sep last : String) {words : List String} (some : words ≠ []) :
    (words ++ [last]).intersperse sep = words.intersperse sep ++ [sep, last] := by
  induction words with
  | nil => exact absurd rfl some
  | cons w rest ih =>
    cases rest with
    | nil => rfl
    | cons v rest => simpa using ih nofun

omit sound in
theorem names_gives (commas breaks : Bool) : Gives (Listed commas) (names commas breaks) := by
  unfold names
  refine name_gives.bind fun first plain => ?_
  refine Gives.loop ⟨[first.text], nofun, by simpa using plain, by cases commas <;> rfl⟩ fun found given => ?_
  obtain ⟨words, filled, plain, rfl⟩ := given
  refine Gives.after fun broken => ?_
  split
  · exact Gives.pure nofun
  refine Gives.after fun comma => ?_
  split
  · refine name_gives.bind fun n word => Gives.pure ?_
    intro more same
    cases same
    refine ⟨words ++ [n.text], by simp, ?_, ?_⟩
    · intro w member
      rcases List.mem_append.mp member with member | member
      · exact plain w member
      · cases List.mem_singleton.mp member
        exact word
    · cases commas with
      | true => exact (intersperse_snoc "," n.text filled).symm
      | false => rfl
  · exact Gives.pure nofun

structure Binding.FromText (source : String) (start : Nat) (isVar : Bool) (b : Binding) : Prop where
  listed : Listed (!isVar) b.names
  values : ∀ values ∈ b.values, FromTokens source start values

omit sound in
theorem unassigned {start : Nat} {isVar : Bool} {ns : List String} (listed : Listed (!isVar) ns) :
    Binding.FromText source start isVar ⟨ns, none⟩ := ⟨listed, nofun⟩

theorem assigned (isVar : Bool) {ns : List String} (listed : Listed (!isVar) ns) (context : Context) :
    Reads source s c (Binding.FromText source s.start isVar) (do return ⟨ns, some (← expressionList context)⟩) := by
  refine Reads.bind sound.keeps (expressionList_reads sound context) fun values read => Reads.pure ⟨listed, ?_⟩
  intro _ same
  cases same
  exact read

theorem constSpec_reads : Reads source s c (Binding.FromText source s.start false) constSpec := by
  have keeps := sound.keeps
  unfold constSpec
  refine Reads.bind keeps (Reads.of_gives (names_gives true true)) fun ns listed => Reads.after keeps fun t => ?_
  split
  · exact Reads.pure (unassigned listed)
  split
  · have further : ∀ u : Unit, Reads source s c (Binding.FromText source s.start false)
        (do mark "="; return ⟨ns, some (← expressionList { breaks := true })⟩) :=
      fun _ => Reads.after keeps fun _ => assigned sound false listed _
    dsimp only
    split
    · exact further ()
    · exact Reads.after keeps further
  · exact Reads.pure (unassigned listed)

theorem varSpec_reads : Reads source s c (Binding.FromText source s.start true) varSpec := by
  have keeps := sound.keeps
  unfold varSpec
  refine Reads.bind keeps (Reads.of_gives (names_gives false false)) fun ns listed => Reads.after keeps fun given => ?_
  split
  · exact assigned sound true listed _
  refine Reads.after keeps fun _ => Reads.after keeps fun broken => ?_
  split
  · exact Reads.pure (unassigned listed)
  refine Reads.after keeps fun given => ?_
  split
  · exact assigned sound true listed _
  · exact Reads.pure (unassigned listed)

theorem grouped_reads {P : α → Prop} {spec : Rule α} (reads : Reads source s c P spec) :
    Reads source s c (∀ b ∈ ·, P b) (grouped spec) := by
  have keeps := sound.keeps
  unfold grouped
  refine Reads.after keeps fun t => ?_
  split
  · refine Reads.enclosed (Reads.loop keeps nofun fun specs given => Reads.after keeps fun t => ?_)
    split
    · exact Reads.pure nofun
    · refine Reads.bind keeps reads fun b read => Reads.after keeps fun _ => Reads.pure ?_
      intro more same other member
      cases same
      rcases List.mem_append.mp member with member | member
      · exact given other member
      · cases List.mem_singleton.mp member
        exact read
  · refine Reads.bind keeps reads fun b read => Reads.pure ?_
    intro other member
    cases List.mem_singleton.mp member
    exact read

theorem declaration_reads :
    Reads source s c (fun d => ∀ b ∈ d.bindings, b.FromText source s.start d.isVar) declaration := by
  have keeps := sound.keeps
  unfold declaration
  refine Reads.after keeps fun t => Reads.after keeps fun group => ?_
  dsimp only
  split
  · exact Reads.bind keeps (grouped_reads sound (constSpec_reads sound)) fun _ read => Reads.pure read
  split
  · exact Reads.bind keeps (grouped_reads sound (varSpec_reads sound)) fun _ read => Reads.pure read
  split
  · exact Reads.after keeps fun _ => Reads.pure nofun
  · exact fun _ _ _ _ ran => nomatch ran

def Item.FromText (source : String) (start : Nat) (item : Item) : Prop :=
  ∀ isVar bindings, item = .bindings isVar bindings → ∀ b ∈ bindings, b.FromText source start isVar

theorem topLevel_reads : Reads source s c (fun r => r.1.FromText source s.start) topLevel := by
  have keeps := sound.keeps
  unfold topLevel
  dsimp only
  have statement : Reads source s c (fun r : Item × Bool => r.1.FromText source s.start)
      (do let ended ← statement false; pure (.statement, ended)) :=
    Reads.after keeps fun _ => Reads.pure nofun
  refine Reads.after keeps fun t => ?_
  split
  · refine Reads.bind keeps (Reads.of_gives packageClause_gives) fun item clause => Reads.pure ?_
    obtain ⟨_, rfl⟩ := clause
    exact nofun
  split
  · refine Reads.bind keeps (Reads.of_gives importDeclaration_gives) fun item imports => Reads.pure ?_
    obtain ⟨_, rfl⟩ := imports
    exact nofun
  split
  · refine Reads.after keeps fun head => ?_
    split
    · refine Reads.bind keeps (Reads.of_gives (functionDeclaration_gives _ _)) fun item function => Reads.pure ?_
      obtain ⟨_, rfl, _⟩ := function
      exact nofun
    · exact statement
  split
  · refine Reads.bind keeps (declaration_reads sound) fun d read => Reads.pure ?_
    intro isVar bindings same
    split at same
    · cases same
    · cases same
      exact read
  · exact statement

theorem entry_reads : Reads source s c (Item.FromText source s.start) entry := by
  have keeps := sound.keeps
  unfold entry
  refine Reads.bind keeps (topLevel_reads sound) fun r read => Reads.after keeps fun t => ?_
  split
  · exact Reads.after keeps fun _ => Reads.pure read
  · exact Reads.after keeps fun _ => Reads.pure read

end Reading

-- Tokens that stand in the text where they say, one behind the other.
structure Standing (source : String) (ts : List Token) : Prop where
  ordered : ts.Pairwise Token.Before
  spelled : ∀ u ∈ ts, u.Spelled source.toList
  fromText : FromText source 0 ts

theorem halves_before {t : Token} {more : List Token} (ordered : (t :: more).Pairwise Token.Before) :
    (halves t ++ more).Pairwise Token.Before := by
  rcases halves_eq t with same | ⟨a, b, text, same, _⟩
  · rw [same]
    exact ordered
  · obtain ⟨first, others⟩ := List.pairwise_cons.mp ordered
    have size : byteLength t.text.toList = a.utf8Size + b.utf8Size := by rw [text]; simp
    have after : ∀ u ∈ more, t.start + a.utf8Size + b.utf8Size ≤ u.start := by
      intro u member
      have bound := first u member
      rw [Token.Before, size] at bound
      omega
    rw [same]
    refine List.pairwise_cons.mpr ⟨fun u member => ?_, List.pairwise_cons.mpr ⟨fun u member => ?_, others⟩⟩
    · rcases List.mem_cons.mp member with rfl | member
      · simp [Token.Before, firstHalf, secondHalf]
      · have bound := after u member
        simp [Token.Before, firstHalf]
        omega
    · have bound := after u member
      simp [Token.Before, secondHalf]
      omega

theorem halves_spelled {chars : List Char} {t u : Token} (spelled : t.Spelled chars) (member : u ∈ halves t) :
    u.Spelled chars := by
  rcases halves_eq t with same | ⟨a, b, both, same, _⟩
  · rw [same] at member
    cases List.mem_singleton.mp member
    exact spelled
  · obtain ⟨lead, taken, behind, rfl, start, stop, text⟩ := spelled
    rw [text, String.toList_ofList] at both
    subst both
    rw [same] at member
    rcases List.mem_cons.mp member with rfl | member
    · exact ⟨lead, [a], b :: behind, rfl, start, by simp [firstHalf, start], String.singleton_eq_ofList⟩
    · cases List.mem_singleton.mp member
      refine ⟨lead ++ [a], [b], behind, by simp, by simp [secondHalf, start], ?_, String.singleton_eq_ofList⟩
      change t.stop = _
      rw [stop]
      simp
      omega

theorem standing_kept (source : String) : Kept (Standing source) where
  tail t more given :=
    ⟨(List.pairwise_cons.mp given.ordered).2, fun u member => given.spelled u (List.mem_cons_of_mem _ member),
      (fromText_kept source 0).tail t more given.fromText⟩
  newline t more given := by
    refine ⟨?_, fun u member => ?_, (fromText_kept source 0).newline t more given.fromText⟩
    · obtain ⟨first, others⟩ := List.pairwise_cons.mp given.ordered
      exact List.pairwise_cons.mpr ⟨first, others⟩
    · rcases List.mem_cons.mp member with rfl | member
      · exact given.spelled t List.mem_cons_self
      · exact given.spelled u (List.mem_cons_of_mem _ member)
  halves t more mark given := by
    refine ⟨halves_before given.ordered, fun u member => ?_, (fromText_kept source 0).halves t more mark given.fromText⟩
    rcases List.mem_append.mp member with member | member
    · exact halves_spelled (given.spelled t List.mem_cons_self) member
    · exact given.spelled u (List.mem_cons_of_mem _ member)

theorem tokens_standing (source : String) : Standing source (tokens source) :=
  ⟨tokens_ordered source, fun _ member => tokens_spelled member,
    fun t member => ⟨Nat.zero_le _, .inr ⟨t, member, rfl, rfl, rfl⟩⟩⟩

-- What stands before the first token does not count.
theorem Standing.begin {source : String} {t : Token} {more : List Token} (given : Standing source (t :: more)) :
    Standing source ({ t with newline := false, comments := [] } :: more) := by
  obtain ⟨first, others⟩ := List.pairwise_cons.mp given.ordered
  refine ⟨List.pairwise_cons.mpr ⟨first, others⟩, fun u member => ?_, fun u member => ?_⟩
  · rcases List.mem_cons.mp member with rfl | member
    · exact given.spelled t List.mem_cons_self
    · exact given.spelled u (List.mem_cons_of_mem _ member)
  · rcases List.mem_cons.mp member with rfl | member
    · exact given.fromText t List.mem_cons_self
    · exact given.fromText u (List.mem_cons_of_mem _ member)

theorem Standing.from_first {source : String} {t : Token} {more : List Token} (given : Standing source (t :: more)) :
    FromText source t.start (t :: more) := by
  obtain ⟨first, _⟩ := List.pairwise_cons.mp given.ordered
  intro u member
  refine ⟨?_, (given.fromText u member).2⟩
  rcases List.mem_cons.mp member with rfl | member
  · exact Nat.le_refl _
  · exact Nat.le_trans (Nat.le_add_right _ _) (first u member)

structure Placed.FromText (source : String) (p : Placed) : Prop where
  place : ∃ lead rest, source.toList = lead ++ rest ∧ p.start = byteLength lead
  item : p.item.FromText source p.start

theorem runItem_read {source : String} {t : Token} {more : List Token} {rest : Input} {item : Item}
    (given : Standing source (t :: more)) (ran : runItem entry (t :: more) = .done (item, rest)) :
    Placed.FromText source ⟨t.start, t.line, item⟩ ∧ Standing source rest.tokens := by
  obtain ⟨lead, taken, behind, whole, start, _⟩ := given.spelled t List.mem_cons_self
  have read := entry_reads (calls_sound source ⟨t.start, t.line⟩ room) _ item rest given.begin.from_first ran
  exact ⟨⟨⟨lead, taken ++ behind, whole, start⟩, read⟩,
    run_kept (standing_kept source) (calls_kept (standing_kept source) _ _) entry given.begin ran⟩

theorem items_read {source : String} {n : Nat} {ts : List Token} {placed : List Placed} (given : Standing source ts)
    (read : items n ts = some placed) : ∀ p ∈ placed, p.FromText source :=
  items_all (fun _ _ _ _ given ran => runItem_read given ran) given read

end Grammar

end CallAtlas.Go
