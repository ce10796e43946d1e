import CallAtlas.Go.Grammar.Statements

namespace CallAtlas.Go.Grammar

open Rule

structure ImportSpec where
  givenName : Option String
  path : String
  deriving Repr

-- Where a function's declaration and its parameter list end, and where that list starts.
structure FunctionSpec where
  name : String
  stop : Nat
  paramsStart : Nat
  paramsStop : Nat
  isMethod : Bool
  deriving Repr

inductive Item where
  | package (name : String)
  | imports (specs : List ImportSpec)
  | function (spec : FunctionSpec)
  | bindings (isVar : Bool) (specs : List Binding)
  | other
  | statement
  deriving Repr

-- An item and where it starts. Positions in it are counted from there.
structure Placed where
  start : Nat
  line : Nat
  item : Item
  deriving Repr

-- The package clause. A comment before the name takes its place.
def packageClause : Rule Item := do
  keyword "package"
  let t ← name
  return .package (t.comments.headD t.text)

def importSpec : Rule ImportSpec := do
  let t ← peek
  let givenName ←
    if t.isMark "." || t.kind == .word then
      let _ ← next
      pure (some t.text)
    else pure none
  let path ← next
  guardThat path.isString
  return ⟨givenName, path.text⟩

def importDeclaration : Rule Item := do
  keyword "import"
  if (← peek).isMark "(" then
    enclosed "(" ")" do
      if (← peek).isMark ")" then return .imports []
      let specs ← loop [← importSpec] fun specs => do
        if (← peek).isMark ")" && !(← peek).newline then return none
        terminator
        if (← peek).isMark ")" then return none
        return some (specs ++ [← importSpec])
      return .imports specs
  else return .imports [← importSpec]

-- How a function's declaration begins, which a function literal does not: its name and whether a
-- receiver stands before it.
def functionHead : Rule (String × Bool) := do
  keyword "func"
  if (← peek).isMark "(" then
    params
    let n ← name
    guardThat (!typeWords.contains n.text && (← peek).isMark "(")
    return (n.text, true)
  else return ((← name).text, false)

def functionDeclaration (name : String) (isMethod : Bool) : Rule Item := do
  if !isMethod && (← peek).isMark "[" then typeParameters
  let paramsStart := (← peek).start
  params
  let paramsStop ← stop
  result true
  let body ← peek
  if body.isMark "\x7b" && !body.newline then block
  return .function ⟨name, ← stop, paramsStart, paramsStop, isMethod⟩

-- A declaration or statement at the top of a file. The flag tells whether the end of the file may
-- close it.
def topLevel : Rule (Item × Bool) := do
  let t ← peek
  let statement : Rule (Item × Bool) := do
    let ended ← statement false
    return (.statement, ended)
  if t.isWord "package" then return (← packageClause, true)
  else if t.isWord "import" then return (← importDeclaration, true)
  else if t.isWord "func" then
    let head ← orTry (do return some (← functionHead)) (pure none)
    match head with
    | some (name, isMethod) => return (← functionDeclaration name isMethod, true)
    | none => statement
  else if t.kind == .word && declarationWords.contains t.text then
    let d ← declaration
    return (if d.bindings.isEmpty then .other else .bindings d.isVar d.bindings, d.endsInValue)
  else statement

def entry : Rule Item := do
  let (item, closable) ← topLevel
  let t ← peek
  if t.kind == .eof && !t.newline then guardThat closable else terminator
  return item

-- What stands before the first token of an item does not count.
def runItem {α : Type} (r : Rule α) : List Token → Attempt (α × Input)
  | [] => .failed
  | t :: rest =>
    let s : Setting := { start := t.start, line := t.line }
    r.run s (calls s room) ⟨{ t with newline := false, comments := [] } :: rest, t.start⟩

def items : Nat → List Token → Option (List Placed)
  | 0, _ => none
  | _ + 1, [] => none
  | n + 1, t :: rest =>
    if t.kind = .eof then some []
    else
      match runItem entry (t :: rest) with
      | .done (item, further) => (items n further.tokens).map (⟨t.start, t.line, item⟩ :: ·)
      | _ => none

-- Every item reads a token, or half of one.
def itemRoom (tokens : List Token) : Nat := 2 * tokens.length + 8

def parse? (source : String) : Option (List Placed) :=
  let tokens := tokens source
  items (itemRoom tokens) tokens

end CallAtlas.Go.Grammar
