import CallAtlas.Yaml.Token

namespace CallAtlas.Yaml

-- A token that may turn out to be a key: the number of the token, and where it stands.
structure KeySlot where
  place : Nat
  index : Nat
  line : Nat
  column : Nat
  required : Bool
  deriving Repr

-- How far the tokens of a text have been read. `slots` has one possible key for each open flow
-- collection, innermost first, and one for the block context; `indent` is the column of the
-- innermost block collection, and `outer` those around it.
structure Scan where
  cursor : Cursor
  tokens : Array (List Token × Token) := #[]
  indent : Int := -1
  outer : List Int := []
  slots : List (Option KeySlot) := [none]
  keyAllowed : Bool := true

namespace Scan

def inFlow (s : Scan) : Bool := s.slots.length > 1

def push (t : Token) (s : Scan) : Scan := { s with tokens := s.tokens.push ([], t) }

-- A token is seen to be a key only at the value sign behind it; the key sign is then put before
-- it.
def insertBefore (place : Nat) (ts : List Token) (s : Scan) : Scan :=
  { s with tokens := s.tokens.modify place fun e => (e.1 ++ ts, e.2) }

def take (n : Nat) (t : Token) (s : Scan) : Scan := { s with cursor := s.cursor.skip n }.push t

def allowKey (b : Bool) (s : Scan) : Scan := { s with keyAllowed := b }

-- Gives up the innermost possible key; one at the column of the block must not be given up.
def dropKey (s : Scan) : Option Scan :=
  match s.slots with
  | some k :: rest => if k.required then none else some { s with slots := none :: rest }
  | _ => some s

def saveKey (s : Scan) : Option Scan :=
  if s.keyAllowed then do
    let s ← s.dropKey
    let c := s.cursor
    let slot : KeySlot :=
      { place := s.tokens.size, index := c.index, line := c.line, column := c.column
        required := !s.inFlow && s.indent == c.column }
    return { s with slots := some slot :: s.slots.drop 1 }
  else some s

-- A key stands on one line and has at most 1024 characters.
def isStale (c : Cursor) (k : KeySlot) : Bool := k.line < c.line || k.index + 1024 < c.index

def dropStale (s : Scan) : Option Scan := do
  let slots ← s.slots.mapM fun slot =>
    match slot with
    | none => some none
    | some k => if isStale s.cursor k then if k.required then none else some none else some (some k)
  return { s with slots }

def closeTo (column : Int) (s : Scan) : Scan :=
  if s.inFlow then s else close s.outer s.indent s
where
  close : List Int → Int → Scan → Scan
    | [], indent, s => { s with indent, outer := [] }
    | o :: rest, indent, s =>
      if indent > column then close rest o (s.push .blockEnd)
      else { s with indent, outer := o :: rest }

def openAt (column : Nat) (s : Scan) : Bool × Scan :=
  if !s.inFlow && s.indent < column then
    (true, { s with indent := column, outer := s.indent :: s.outer })
  else (false, s)

-- Passes over blanks, comments and line ends. Tabs do not count as indentation.
def skipToToken : Nat → Scan → Scan
  | 0, s => s
  | fuel + 1, s =>
    let tabs := s.inFlow || !s.keyAllowed
    let c := (s.cursor.skipWhile fun x => x == ' ' || (tabs && x == '\t')).skipComment
    if c.seesBreak then
      skipToToken fuel
        { s with cursor := c.readBreak.2, keyAllowed := s.keyAllowed || !s.inFlow }
    else { s with cursor := c }

def directive (s : Scan) : Option Scan := do
  let s ← (s.closeTo (-1)).dropKey
  let (t, c) ← readDirective s.cursor
  return ({ s with cursor := c }.allowKey false).push t

def documentMarker (t : Token) (s : Scan) : Option Scan := do
  let s ← (s.closeTo (-1)).dropKey
  return (s.allowKey false).take 3 t

def flowStart (t : Token) (s : Scan) : Option Scan := do
  let s ← s.saveKey
  return ({ s with slots := none :: s.slots }.allowKey true).take 1 t

def flowEnd (t : Token) (s : Scan) : Option Scan := do
  let s ← s.dropKey
  let slots := if s.inFlow then s.slots.drop 1 else s.slots
  return ({ s with slots }.allowKey false).take 1 t

def flowEntry (s : Scan) : Option Scan := do
  let s ← s.dropKey
  return (s.allowKey true).take 1 .flowEntry

def openHere (start : Token) (s : Scan) : Option Scan :=
  if s.inFlow then some s
  else if !s.keyAllowed then none
  else
    let (opened, s) := s.openAt s.cursor.column
    some (if opened then s.push start else s)

def blockEntry (s : Scan) : Option Scan := do
  let s ← s.openHere .blockListStart
  let s ← s.dropKey
  return (s.allowKey true).take 1 .blockEntry

def keySign (s : Scan) : Option Scan := do
  let s ← s.openHere .blockMapStart
  let s ← s.dropKey
  return (s.allowKey !s.inFlow).take 1 .key

-- A value sign makes the innermost possible key a key.
def valueSign (s : Scan) : Option Scan :=
  match s.slots with
  | some k :: rest =>
    let (opened, s) := { s with slots := none :: rest }.openAt k.column
    let signs := if opened then [Token.blockMapStart, .key] else [.key]
    some (((s.insertBefore k.place signs).allowKey false).take 1 .value)
  | _ => do
    let s ← s.openHere .blockMapStart
    return (s.allowKey !s.inFlow).take 1 .value

def keyLike (read : Cursor → Option (Token × Cursor)) (s : Scan) : Option Scan := do
  let s ← s.saveKey
  let (t, c) ← read s.cursor
  return ({ s with cursor := c }.allowKey false).push t

def blockScalar (form : Form) (s : Scan) : Option Scan := do
  let s ← s.dropKey
  let (text, c) ← readBlock (form == .literal) s.indent s.cursor
  return ({ s with cursor := c }.allowKey true).push (.scalar form text)

def quotedScalar (quote : Char) (c : Cursor) : Option (Token × Cursor) := do
  let (text, next) ← readQuoted quote (c.rest.length + 1) [] (c.skip 1)
  return (.scalar .quoted (String.ofList text), next)

-- After a line end behind a plain scalar a new entry may begin.
def plainScalar (s : Scan) : Option Scan := do
  let s ← s.saveKey
  let c := s.cursor
  let (text, broken, next) ← readPlain s.inFlow (s.indent + 1).toNat (c.rest.length + 1) [] {} c
  return ({ s with cursor := next }.allowKey broken).push (.scalar .plain (String.ofList text))

def plainStops : List Char := "-?:,[]\x7b\x7d#&*!|>'\"%@\x60".toList

def startsPlain (s : Scan) (x : Char) : Bool :=
  let blankNext := (s.cursor.rest[1]?).any fun y => y == ' ' || y == '\t'
  !(isBlankOrBreak x || plainStops.contains x) || (x == '-' && !blankNext) ||
    (!s.inFlow && (x == '?' || x == ':') && !s.cursor.partsAt 1)

def token (x : Char) (s : Scan) : Option Scan :=
  let c := s.cursor
  let named (make : String → Token) (c : Cursor) : Option (Token × Cursor) :=
    (readName c).map fun (name, next) => (make name, next)
  if c.column == 0 && x == '%' then s.directive
  else if c.seesMarker "---" then s.documentMarker .documentStart
  else if c.seesMarker "..." then s.documentMarker .documentEnd
  else if x == '[' then s.flowStart .flowListStart
  else if x == '\x7b' then s.flowStart .flowMapStart
  else if x == ']' then s.flowEnd .flowListEnd
  else if x == '\x7d' then s.flowEnd .flowMapEnd
  else if x == ',' then s.flowEntry
  else if x == '-' && c.partsAt 1 then s.blockEntry
  else if x == '?' && (s.inFlow || c.partsAt 1) then s.keySign
  else if x == ':' && (s.inFlow || c.partsAt 1) then s.valueSign
  else if x == '*' then s.keyLike (named .reference)
  else if x == '&' then s.keyLike (named .anchor)
  else if x == '!' then s.keyLike (readTag s.inFlow)
  else if x == '|' && !s.inFlow then s.blockScalar .literal
  else if x == '>' && !s.inFlow then s.blockScalar .folded
  else if x == '\'' || x == '"' then s.keyLike (quotedScalar x)
  else if s.startsPlain x then s.plainScalar
  else none

def run : Nat → Scan → Option Scan
  | 0, _ => none
  | fuel + 1, s => do
    let s ← (skipToToken (s.cursor.rest.length + 1) s).dropStale
    let s := s.closeTo s.cursor.column
    match s.cursor.peek? with
    | none => (s.closeTo (-1)).dropKey
    | some x =>
      let s ← s.token x
      run fuel s

end Scan

def isAllowed (c : Char) : Bool :=
  let n := c.toNat
  n == 9 || n == 10 || n == 13 || (0x20 ≤ n && n ≤ 0x7E) || n == 0x85 ||
    (0xA0 ≤ n && n != 0xFFFE && n != 0xFFFF)

def dropByteOrderMark : List Char → List Char
  | c :: rest => if c.toNat == 0xFEFF then rest else c :: rest
  | [] => []

def tokens? (s : String) : Option (List Token) :=
  let text := dropByteOrderMark s.toList
  if text.all isAllowed then
    (Scan.run (text.length + 2) { cursor := { rest := text } }).map fun s =>
      s.tokens.toList.flatMap fun e => e.1 ++ [e.2]
  else none

end CallAtlas.Yaml
