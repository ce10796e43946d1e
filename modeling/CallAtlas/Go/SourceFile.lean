import CallAtlas.Failure
import CallAtlas.Files.Body
import CallAtlas.Go.Grammar.File

namespace CallAtlas.Go

open CallAtlas.Text

structure Import where
  givenName : Option String
  path : String
  deriving Repr, DecidableEq

def Import.localName (i : Import) : String := i.givenName.getD (afterLast '/' i.path)

-- A function or method declared at the top of a file. `source` is the whole declaration and
-- `params` its parameter list with parentheses; positions are in bytes.
structure Function where
  name : String
  source : String
  params : String
  start : Nat
  stop : Nat
  line : Nat
  isMethod : Bool
  deriving Repr, DecidableEq

structure SourceFile where
  path : Path
  source : String
  package : Option String
  imports : List Import
  functions : List Function
  -- Names bound to a literal, the latest binding first.
  literals : List (String × String)
  deriving Repr, DecidableEq

def SourceFile.literal? (f : SourceFile) (name : String) : Option String :=
  f.literals.lookup name

def isQuote (c : Char) : Bool := c == '"' || c == '\x60'

namespace Grammar

def literalText (chars : List Char) (o : Operand) : Option String :=
  let text := slice chars o.start o.stop
  match o.shape with
  | .interpreted => some (trimMatches (· == '"') text)
  | .raw => some (trimMatches (· == '\x60') text)
  | .integer => some text
  | .float => some text
  | _ => none

def Value.literalText (chars : List Char) : Value → Option String
  | .comment => none
  | .operand o => Grammar.literalText chars o

-- The literals that a specification binds, in order: names and values are paired by position.
def Binding.literals (chars : List Char) (b : Binding) : List (String × String) :=
  (b.names.zip (b.values.getD [])).filterMap fun (name, value) =>
    (value.literalText chars).map (name, ·)

def Item.importList : Item → List Import
  | .imports specs =>
    specs.filterMap fun s =>
      let path := trimMatches isQuote s.path
      if path == "" then none else some ⟨s.givenName, path⟩
  | _ => []

def Placed.text (chars : List Char) (p : Placed) : List Char := dropBytes p.start chars

def Placed.function? (chars : List Char) (p : Placed) : Option Function :=
  match p.item with
  | .function s =>
    some
      { name := s.name
        source := slice (p.text chars) 0 s.stop
        params := slice (p.text chars) s.paramsStart s.paramsStop
        start := p.start
        stop := p.start + s.stop
        line := p.line
        isMethod := s.isMethod }
  | _ => none

def Item.package? : Item → Option String
  | .package name => some name
  | _ => none

def Placed.literals (chars : List Char) (p : Placed) : List (String × String) :=
  match p.item with
  | .bindings _ specs => specs.flatMap (·.literals (p.text chars))
  | _ => []

def faultLine : Nat → List Token → Nat
  | _, [] => 1
  | 0, t :: _ => t.line
  | n + 1, t :: rest =>
    let item : Rule Unit := do
      let _ ← topLevel
      Rule.terminator
    match runItem item (t :: rest) with
    | .done (_, further) => faultLine n further.tokens
    | _ => t.line

def faultOf (source : String) : SourceFault :=
  let tokens := tokens source
  .syntaxNear (faultLine (itemRoom tokens) tokens)

end Grammar

namespace SourceFile

def ofText (path : Path) (source : String) : Except Failure SourceFile :=
  match Grammar.parse? source with
  | none => .error (.source path (Grammar.faultOf source))
  | some items =>
    let chars := source.toList
    .ok
      { path
        source
        package := (items.filterMap (·.item.package?)).getLast?
        imports := items.flatMap (·.item.importList)
        functions := items.filterMap (·.function? chars)
        literals := (items.flatMap (·.literals chars)).reverse }

def ofBody (path : Path) (body : Body) : Except Failure SourceFile :=
  match body.decode with
  | .ok source => ofText path source
  | .error e => .error (.source path (.undecodable e))

end SourceFile

namespace Grammar

-- The value that a specification gives to a variable; the outer option is empty if it does not
-- declare the variable.
def Binding.valueOf? (b : Binding) (name : String) : Option (Option Value) :=
  match b.names.findIdx? (· == name) with
  | none => none
  | some i => some ((b.values.getD [])[i]?)

-- The value of the first declaration that gives the variable one, and where that declaration stands.
-- Inside a declaration the first specification that names it decides.
def valueOf? (items : List Placed) (name : String) : Option (Placed × Value) :=
  items.findSome? fun p =>
    match p.item with
    | .bindings true specs => (specs.findSome? (·.valueOf? name)).join.map (p, ·)
    | _ => none

def Operand.entries? (chars : List Char) (o : Operand) : Option (List (String × String)) :=
  match o.shape with
  | .composite entries =>
    some <| entries.map fun e =>
      (trimMatches isQuote (slice chars e.keyStart e.keyStop), slice chars e.valueStart e.valueStop)
  | .closure => some []
  | _ => none

end Grammar

def mapEntries (path : Path) (source : String) (variableName : String) :
    Except Failure (Option (List (String × String))) :=
  match Grammar.parse? source with
  | none => .error (.source path (Grammar.faultOf source))
  | some items =>
    match Grammar.valueOf? items variableName with
    | some (p, .operand o) => .ok (o.entries? (p.text source.toList))
    | _ => .ok none

-- The declarations of a companion after those of a resource. The companion's text up to its first
-- line that begins with a package clause is dropped.
def appendCompanion (resource companion : String) : String :=
  let rest := (lines companion).dropWhile fun l => !startsWith (trimStart l) "package "
  let body := if rest.isEmpty then companion else join "\n" (rest.drop 1)
  resource ++ "\n" ++ body ++ "\n"

-- The name of the resource that a file describes: the file's stem without a version at its end.
def resourceName (stem : String) : String :=
  let chars := stem.toList
  let digits := (chars.reverse.takeWhile isDigit).length
  let lead := chars.take (chars.length - digits)
  if digits > 0 && "_v".toList.isSuffixOf lead then String.ofList (lead.take (lead.length - 2))
  else stem

end CallAtlas.Go
