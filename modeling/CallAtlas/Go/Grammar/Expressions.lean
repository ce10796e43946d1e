import CallAtlas.Go.Grammar.Types

namespace CallAtlas.Go.Grammar

open Rule

inductive Form where
  | word
  | dotted
  | indexed
  | literalType
  | impliedArray
  | bareType
  | plain
  deriving Repr, DecidableEq

def Form.isType : Form → Bool
  | .literalType | .impliedArray | .bareType => true
  | _ => false

def expression (c : Context) : Rule Operand := do
  let o ← expr c
  guardThat !o.isType
  return o

def callArguments : Rule Unit :=
  enclosed "(" ")" do
    if (← peek).isMark ")" then return ()
    elements ")" do
      let _ ← expression {}
      let _ ← optMark "..."

def typeFirstArguments : Rule Unit :=
  enclosed "(" ")" do
    if (← peek).isMark ")" then return ()
    typ false
    loop () fun _ => do
      if ← optMark "," then
        if (← peek).isMark ")" then return none
        let _ ← expression {}
        return some ()
      else return none

def allocated (breaks : Bool) : Rule Unit := do
  unless ← cut breaks do
    if (← peek).isMark "(" then typeFirstArguments

-- An index, a slice or type arguments after an operand. The answer tells whether the operand is
-- complete only if a call follows.
def bracketed : Rule Bool :=
  enclosed "[" "]" do
    let sliceTail : Rule Unit := do
      mark ":"
      unless (← peek).isMark "]" || (← peek).isMark ":" do
        let _ ← expression {}
        if ← optMark ":" then
          let _ ← expression {}
    if (← peek).isMark ":" then
      sliceTail
      return false
    let first ← expr { types := true }
    if (← peek).isMark ":" then
      guardThat !first.isType
      sliceTail
      return false
    loop first.isType fun _ => do
      if ← optMark "," then
        if (← peek).isMark "]" then return none
        let _ ← expr { types := true }
        return some true
      else return none

def closureOrType : Rule (Shape × Form) := do
  keyword "func"
  params
  if (← peek).isMark "\x7b" then
    block
    return (.closure, .plain)
  result false
  if (← peek).isMark "\x7b" then
    block
    return (.closure, .plain)
  return (.other, .bareType)

def takenAs (shape : Shape) (form : Form) : Rule (Shape × Form) := do
  let _ ← next
  return (shape, form)

def wordOperand (c : Context) (text : String) : Rule (Shape × Form) := do
  if text == "func" then closureOrType
  else if text == "map" then
    mapType false
    return (.other, .literalType)
  else if text == "struct" then
    structType
    return (.other, .literalType)
  else if text == "chan" then
    channelType false
    return (.other, .bareType)
  else if text == "interface" then
    interfaceType
    return (.other, .bareType)
  else if text == "new" || text == "make" then
    let _ ← next
    allocated c.breaks
    return (.other, .plain)
  else if operandWords.contains text then takenAs .other .plain
  else takenAs .other .word

def markOperand (text : String) : Rule (Shape × Form) := do
  if text == "(" then
    let inner ← enclosed "(" ")" (expr { types := true })
    if inner.isType then return (.other, .bareType) else return (.other, .plain)
  else if text == "[" then
    if ← arrayType false true then return (.other, .impliedArray)
    else return (.other, .literalType)
  else if text == "~" then
    typ false
    return (.other, .bareType)
  else fail

def operandStart (c : Context) : Rule (Shape × Form) := do
  let t ← peek
  match t.kind with
  | .integer => takenAs .integer .plain
  | .float => takenAs .float .plain
  | .imaginary => takenAs .other .plain
  | .rune => takenAs .other .plain
  | .interpreted => takenAs .interpreted .plain
  | .raw => takenAs .raw .plain
  | .word => wordOperand c t.text
  | .mark => markOperand t.text
  | _ => fail

def selector (form : Form) : Rule (Shape × Form) := do
  mark "."
  if (← peek).isMark "(" then
    enclosed "(" ")" (typ false)
    return (.other, .plain)
  let _ ← name
  return (.other, if form == .word then .dotted else .plain)

def selectorStep (c : Context) (form : Form) : Rule (Option (Shape × Form)) := do
  if form.isType then return none
  if c.switchHead && (← peekAt 1).isMark "(" && (← peekAt 2).isWord "type" then return none
  return some (← selector form)

def conversion : Rule Unit :=
  enclosed "(" ")" do
    let _ ← expression {}
    let _ ← optMark ","

def callStep (form : Form) : Rule (Option (Shape × Form)) := do
  if form.isType then
    guardThat (form != .impliedArray)
    conversion
  else callArguments
  return some (.other, .plain)

def indexStep (form : Form) : Rule (Option (Shape × Form)) := do
  if form.isType then return none
  let typed ← bracketed
  let named := form == .word || form == .dotted
  if typed && !named then guardThat ((← peek).isMark "(")
  return some (.other, if named then .indexed else .plain)

def literalStep (c : Context) (form : Form) : Rule (Option (Shape × Form)) := do
  let literalHere :=
    form == .literalType || form == .impliedArray ||
      (!c.blockFollows && (form == .word || form == .dotted || form == .indexed))
  if literalHere then
    let entries ← literal
    return some (.composite entries, .plain)
  else return none

def operandStep (c : Context) (now : Shape × Form) : Rule (Option (Shape × Form)) := do
  let form := now.2
  if !form.isType && (← cut c.breaks) then return none
  let t ← peek
  if t.isMark "." then selectorStep c form
  else if t.isMark "(" then callStep form
  else if t.isMark "[" then indexStep form
  else if t.isMark "\x7b" then literalStep c form
  else return none

def operand (c : Context) : Rule Operand := do
  let start := (← peek).start
  let first ← operandStart c
  let (shape, form) ← loop first (operandStep c)
  return ⟨if form.isType then .bareType else shape, start, ← stop⟩

def unaryMarks : List String := ["+", "-", "!", "^", "*", "&", "<-"]

-- Marks that stand for two operators where an operand begins.
def unaryPairs : List String := ["&^", "&&", "--", "++"]

def unaryMark : Rule (Option String) := do
  split unaryPairs
  let t ← peek
  if t.kind == .mark && unaryMarks.contains t.text then
    let _ ← next
    return some t.text
  else return none

def unaryStep (ops : List String) : Rule (Option (List String)) := do
  match ← unaryMark with
  | some op => return some (op :: ops)
  | none => return none

-- A receiving channel that is a type, where types may stand.
def receivingChannel (c : Context) : Rule (Option Operand) := do
  if c.types && (← peek).isMark "<-" && (← peekAt 1).isWord "chan" then
    let start := (← peek).start
    orTry
      (do
        channelType false
        guardThat (!(← peek).isMark "(")
        return some ⟨.bareType, start, ← stop⟩)
      (pure none)
  else return none

-- Operators and then an operand. A type is a type after `*` too.
def prefixed (c : Context) (start : Nat) : Rule Operand := do
  let ops ← loop [] unaryStep
  let o ← operand c
  if ops.isEmpty then return o
  else if o.isType then
    guardThat (ops.all (· == "*"))
    return ⟨.bareType, start, o.stop⟩
  else return ⟨.other, start, o.stop⟩

def unary (c : Context) : Rule Operand := do
  let start := (← peek).start
  match ← receivingChannel c with
  | some o => return o
  | none => prefixed c start

def binaryMarks : List String :=
  ["*", "/", "%", "<<", ">>", "&", "&^", "+", "-", "|", "^", "==", "!=", "<", "<=", ">", ">=",
   "&&", "||"]

def binaryPairs : List String := ["<-", "++", "--"]

def binaryOperand (c : Context) (now : Operand) : Rule (Option Operand) := do
  let t ← peek
  if t.kind == .mark && binaryMarks.contains t.text then
    let _ ← next
    let o ← unary c
    guardThat !o.isType
    return some ⟨.other, now.start, o.stop⟩
  else return none

def binaryStep (c : Context) (now : Operand) : Rule (Option Operand) := do
  if ← cut c.breaks then return none
  unless c.head do split binaryPairs
  binaryOperand c now

def exprRule (c : Context) : Rule Operand := do
  let first ← unary c
  if first.isType then return first
  loop first (binaryStep c)

def literalElement : Rule Unit := do
  if (← peek).isMark "\x7b" then
    let _ ← literal
  else
    let _ ← expression {}

def literalEntry : Rule (List Entry) := do
  let keyStart := (← peek).start
  literalElement
  let keyStop ← stop
  if ← optMark ":" then
    let valueStart := (← peek).start
    literalElement
    return [⟨keyStart, keyStop, valueStart, ← stop⟩]
  else return []

def literalRule : Rule (List Entry) :=
  enclosed "\x7b" "\x7d" do
    if (← peek).isMark "\x7d" then return []
    if ← optMark "," then return []
    loop (← literalEntry) fun entries => do
      if ← optMark "," then
        if (← peek).isMark "\x7d" then return none
        return some (entries ++ (← literalEntry))
      else return none

end CallAtlas.Go.Grammar
