import CallAtlas.Go.Grammar.Expressions

namespace CallAtlas.Go.Grammar

open Rule

inductive Value where
  | comment
  | operand (o : Operand)
  deriving Repr

def expressionList (c : Context) : Rule (List Value) := do
  let first ← expression c
  loop [.operand first] fun values => do
    if ← cut c.breaks then return none
    let t ← peek
    if t.isMark "," then
      let _ ← next
      let between := t.comments.length + (← peek).comments.length
      let o ← expression c
      return some (values ++ List.replicate between .comment ++ [.operand o])
    else return none

def assignMarks : List String :=
  ["=", "+=", "-=", "*=", "/=", "%=", "&=", "|=", "^=", "<<=", ">>=", "&^="]

inductive SimpleEnd where
  | expression
  | value
  | mark
  deriving Repr, DecidableEq

def simpleTail (c : Context) (count : Nat) : Rule SimpleEnd := do
  let t ← peek
  let broken ← cut c.breaks
  let values : Context := { breaks := c.breaks, blockFollows := c.blockFollows }
  if !broken && (t.isMark ":=" || (t.kind == .mark && assignMarks.contains t.text)) then
    let _ ← next
    let _ ← expressionList values
    return .value
  else if count != 1 then fail
  else if !broken && (t.isMark "++" || t.isMark "--") then
    let _ ← next
    return .mark
  else if !broken && t.isMark "<-" then
    let _ ← next
    let _ ← expression values
    return .value
  else return .expression

-- The expressions at the beginning of a simple statement; only the first can be followed by a
-- block.
def simpleHead (c : Context) : Rule Nat := do
  let _ ← expression { c with head := true }
  loop 1 fun n => do
    if ← cut c.breaks then return none
    if ← optMark "," then
      let _ ← expression { breaks := c.breaks, head := true }
      return some (n + 1)
    else return none

def simple (c : Context) : Rule SimpleEnd := do
  let count ← simpleHead c
  simpleTail c count

def atListEnd (inCase : Bool) : Rule Bool := do
  let t ← peek
  return t.isMark "\x7d" || (inCase && (t.isWord "case" || t.isWord "default"))

def statements (inCase : Bool) : Rule Unit :=
  loop () fun _ => do
    if ← atListEnd inCase then return none
    let _ ← statement inCase
    if ← atListEnd inCase then
      unless (← peek).newline do return none
    let t ← peek
    if t.newline || t.isMark ";" || t.isMark "\x00" then
      terminator
      return some ()
    else return none

def blockRule : Rule Unit := enclosed "\x7b" "\x7d" (statements false)

def grouped {α : Type} (spec : Rule α) : Rule (List α) := do
  if (← peek).isMark "(" then
    enclosed "(" ")" do
      loop [] fun specs => do
        if (← peek).isMark ")" then return none
        let s ← spec
        terminator
        return some (specs ++ [s])
  else return [← spec]

-- The names and values that one specification binds. In the names of a constant the commas count.
structure Binding where
  names : List String
  values : Option (List Value)
  deriving Repr

def names (commas : Bool) (breaks : Bool) : Rule (List String) := do
  let first ← name
  loop [first.text] fun found => do
    if ← cut breaks then return none
    if ← optMark "," then
      let n ← name
      return some (found ++ (if commas then [",", n.text] else [n.text]))
    else return none

def constSpec : Rule Binding := do
  let ns ← names true true
  let t ← peek
  if t.newline then return ⟨ns, none⟩
  if startsType t || t.isMark "=" then
    unless t.isMark "=" do typ false
    mark "="
    return ⟨ns, some (← expressionList { breaks := true })⟩
  else return ⟨ns, none⟩

def varSpec : Rule Binding := do
  let ns ← names false false
  if ← optMark "=" then return ⟨ns, some (← expressionList { breaks := true })⟩
  typ true
  if ← cut true then return ⟨ns, none⟩
  if ← optMark "=" then return ⟨ns, some (← expressionList { breaks := true })⟩
  else return ⟨ns, none⟩

def aliased : Rule Unit := do
  let _ ← optMark "="
  typ true

def typeSpec : Rule Unit := do
  let _ ← name
  if (← peek).isMark "[" then
    if ← tries typeParameters then aliased else typ true
  else aliased

structure Declared where
  isVar : Bool
  bindings : List Binding
  endsInValue : Bool
  deriving Repr

def endsInValue (groupFollows : Bool) (bindings : List Binding) : Bool :=
  !groupFollows && bindings.any (·.values.isSome)

def declaration : Rule Declared := do
  let t ← name
  let isGroup := (← peek).isMark "("
  if t.text == "const" then
    let bindings ← grouped constSpec
    return ⟨false, bindings, endsInValue isGroup bindings⟩
  else if t.text == "var" then
    let bindings ← grouped varSpec
    return ⟨true, bindings, endsInValue isGroup bindings⟩
  else if t.text == "type" then
    let _ ← grouped typeSpec
    return ⟨false, [], false⟩
  else fail

def ifRule : Rule Unit := do
  keyword "if"
  let count ← simpleHead { blockFollows := true }
  let ending ← simpleTail {} count
  if ← optMark ";" then
    let _ ← expression { blockFollows := true }
  else guardThat (ending == .expression)
  block
  let t ← peek
  if t.isWord "else" && !t.newline then
    let _ ← next
    if (← peek).isWord "if" then call .ifStatement else block

def forClause : Rule Unit := do
  mark ";"
  unless (← peek).isMark ";" do
    let _ ← expression {}
  mark ";"
  unless (← peek).isMark "\x7b" do
    let _ ← simple { blockFollows := true }

def rangeClause : Rule Unit := do
  keyword "range"
  let _ ← expression { blockFollows := true }

def forStatement : Rule Unit := do
  keyword "for"
  let t ← peek
  if t.isMark "\x7b" then pure ()
  else if t.isWord "range" then rangeClause
  else if t.isMark ";" then forClause
  else
    let count ← simpleHead { blockFollows := true }
    let t ← peek
    if t.isMark ":=" || t.isMark "=" then
      let _ ← next
      if (← peek).isWord "range" then rangeClause
      else
        let _ ← expressionList {}
        forClause
    else
      let ending ← simpleTail {} count
      if (← peek).isMark ";" then forClause
      else guardThat (ending == .expression)
  block

def caseBlock (guard : Rule Unit) : Rule Unit :=
  enclosed "\x7b" "\x7d" do
    loop () fun _ => do
      let t ← peek
      if t.isWord "case" then
        let _ ← next
        guard
        mark ":"
        statements true
        return some ()
      else if t.isWord "default" then
        let _ ← next
        mark ":"
        statements true
        return some ()
      else return none

def typeGuard : Rule Bool := do
  if ← optMark "." then
    enclosed "(" ")" (keyword "type")
    return true
  else return false

inductive SwitchPart where
  | types
  | value
  | statement
  deriving DecidableEq

def switchPart : Rule SwitchPart := do
  let count ← simpleHead { blockFollows := true, switchHead := true }
  if count == 1 && (← typeGuard) then return .types
  if (← peek).isMark ":=" then
    let _ ← next
    let _ ← expression { switchHead := true }
    if ← typeGuard then return .types
    loop () fun _ => do
      if ← optMark "," then
        let _ ← expression {}
        return some ()
      else return none
    return .statement
  match ← simpleTail {} count with
  | .expression => return .value
  | _ => return .statement

def switchStatement : Rule Unit := do
  keyword "switch"
  let valueCases := caseBlock (do let _ ← expressionList {})
  let typeCases := caseBlock (commaList false (typ false))
  if (← peek).isMark "\x7b" then valueCases
  else
    let first ← switchPart
    if first == .types then typeCases
    else if ← optMark ";" then
      if (← peek).isMark "\x7b" then valueCases
      else
        match ← switchPart with
        | .types => typeCases
        | .value => valueCases
        | .statement => fail
    else
      guardThat (first == .value)
      valueCases

def selectStatement : Rule Unit := do
  keyword "select"
  caseBlock do
    let count ← simpleHead {}
    let t ← peek
    if t.isMark "<-" then
      guardThat (count == 1)
      let _ ← next
      let _ ← expression {}
    else if t.isMark "=" || t.isMark ":=" then
      let _ ← next
      let _ ← expression {}
    else guardThat (count == 1)

def declarationWords : List String := ["const", "var", "type"]

def atStatementEnd (inCase : Bool) : Rule Bool := do
  let t ← peek
  return t.newline || t.kind == .eof || t.isMark ";" || t.isMark "\x00" || (← atListEnd inCase)

def wordStatement (inCase : Bool) (t : Token) : Rule Bool := do
  let w := t.text
  if declarationWords.contains w then return (← declaration).endsInValue
  else if w == "return" then
    let _ ← next
    if ← atStatementEnd inCase then return false
    let _ ← expressionList { breaks := true }
    return true
  else if w == "go" || w == "defer" then
    let _ ← next
    let _ ← expression { breaks := true }
    return true
  else if w == "if" then
    call .ifStatement
    return false
  else if w == "for" then
    forStatement
    return false
  else if w == "switch" then
    switchStatement
    return false
  else if w == "select" then
    selectStatement
    return false
  else if w == "fallthrough" then
    let _ ← next
    return false
  else if w == "break" || w == "continue" then
    let _ ← next
    unless ← atStatementEnd inCase do
      let _ ← name
    return false
  else if w == "goto" then
    let _ ← next
    let _ ← name
    return false
  else
    let after ← peekAt 1
    if !operandWords.contains w && after.isMark ":" && !after.newline then
      let _ ← next
      mark ":"
      if ← atListEnd inCase then return false
      statement inCase
    else return (← simple { breaks := true }) == .value

def statementRule (inCase : Bool) : Rule Bool := do
  let t ← peek
  if t.isMark "\x7b" then
    block
    return false
  else if t.isMark ";" then
    let _ ← next
    return false
  else if t.kind == .word then wordStatement inCase t
  else return (← simple { breaks := true }) == .value

def Nonterminal.rule : (n : Nonterminal) → Rule n.Answer
  | .expr c => exprRule c
  | .typ breaks => typeRule breaks
  | .block => blockRule
  | .params => paramsRule
  | .literal => literalRule
  | .statement inCase => statementRule inCase
  | .ifStatement => ifRule

-- The rules of all nonterminals, called to some depth.
def calls (s : Setting) : Nat → Calls
  | 0, _, _ => .starved
  | depth + 1, n, input => n.rule.run s (calls s depth) input

end CallAtlas.Go.Grammar
