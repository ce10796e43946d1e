import CallAtlas.Data.Decimal
import CallAtlas.Data.Readable
import CallAtlas.Text.CharClass

namespace CallAtlas.Json

open CallAtlas.Text

-- A value. Texts that are no Unicode text are `none`; numbers keep their spelling, and records
-- their entries in order, with repetitions.
inductive Value where
  | null
  | truth (b : Bool)
  | number (literal : List Char)
  | text (content : Option String)
  | list (items : List Value)
  | record (entries : List (Option String × Value))
  deriving Repr, Inhabited

inductive Piece where
  | char (c : Char)
  | unit (n : Nat)

-- The text that pieces spell; two units above `0xD800` must form a pair.
def joinPieces : List Piece → Option (List Char)
  | [] => some []
  | .char c :: rest => (joinPieces rest).map (c :: ·)
  | .unit a :: .unit b :: rest =>
    if 0xD800 ≤ a && a < 0xDC00 then
      if 0xDC00 ≤ b && b < 0xE000 then
        (joinPieces rest).map (Char.ofNat (0x10000 + (a - 0xD800) * 1024 + (b - 0xDC00)) :: ·)
      else none
    else if 0xDC00 ≤ a && a < 0xE000 then none
    else (joinPieces (.unit b :: rest)).map (Char.ofNat a :: ·)
  | .unit a :: rest =>
    if 0xD800 ≤ a && a < 0xE000 then none else (joinPieces rest).map (Char.ofNat a :: ·)

def escape? : Char → Option Char
  | '"' => some '"'
  | '\\' => some '\\'
  | '/' => some '/'
  | 'b' => some (Char.ofNat 8)
  | 'f' => some (Char.ofNat 12)
  | 'n' => some '\n'
  | 'r' => some '\r'
  | 't' => some '\t'
  | _ => none

def pieces : List Char → Option (List Piece × List Char)
  | [] => none
  | '"' :: rest => some ([], rest)
  | '\\' :: 'u' :: a :: b :: c :: d :: rest =>
    if [a, b, c, d].all isHexDigit then do
      let (ps, after) ← pieces rest
      let unit := ((hexValue a * 16 + hexValue b) * 16 + hexValue c) * 16 + hexValue d
      return (.unit unit :: ps, after)
    else none
  | '\\' :: e :: rest => do
    let c ← escape? e
    let (ps, after) ← pieces rest
    return (.char c :: ps, after)
  | c :: rest =>
    if c.toNat < 32 then none
    else do
      let (ps, after) ← pieces rest
      return (.char c :: ps, after)

def quoted (text : List Char) : Option (Option String × List Char) := do
  let (ps, rest) ← pieces text
  return ((joinPieces ps).map String.ofList, rest)

def isSpace (c : Char) : Bool := c == ' ' || c == '\n' || c == '\t' || c == '\r'

def skipSpace (text : List Char) : List Char := text.dropWhile isSpace

def digits (text : List Char) : Option (List Char × List Char) :=
  match text.takeWhile Char.isDigit with
  | [] => none
  | ds => some (ds, text.dropWhile Char.isDigit)

def wholePart : List Char → Option (List Char × List Char)
  | '0' :: c :: rest => if c.isDigit then none else some (['0'], c :: rest)
  | text => digits text

def fractionPart : List Char → Option (List Char × List Char)
  | '.' :: rest => (digits rest).map fun (ds, rest) => ('.' :: ds, rest)
  | text => some ([], text)

def exponentPart (text : List Char) : Option (List Char × List Char) :=
  match text with
  | e :: rest =>
    if e == 'e' || e == 'E' then
      match rest with
      | '+' :: rest => (digits rest).map fun (ds, rest) => ('e' :: ds, rest)
      | '-' :: rest => (digits rest).map fun (ds, rest) => ('e' :: '-' :: ds, rest)
      | _ => (digits rest).map fun (ds, rest) => ('e' :: ds, rest)
    else some ([], text)
  | [] => some ([], [])

def unsignedNumber (text : List Char) : Option (List Char × List Char) := do
  let (whole, rest) ← wholePart text
  let (fraction, rest) ← fractionPart rest
  let (exponent, rest) ← exponentPart rest
  return (whole ++ fraction ++ exponent, rest)

def number (text : List Char) : Option (Value × List Char) := do
  let unsigned :=
    match text with
    | '-' :: rest => rest
    | _ => text
  let (literal, rest) ← unsignedNumber unsigned
  return (.number literal, rest)

def keyword (word : String) (v : Value) (text : List Char) : Option (Value × List Char) :=
  if word.toList.isPrefixOf text then some (v, text.drop word.length) else none

mutual

-- A value and what follows it, for values nested no deeper than `fuel`.
def value : Nat → List Char → Option (Value × List Char)
  | 0, _ => none
  | fuel + 1, text =>
    match skipSpace text with
    | [] => none
    | '"' :: rest => (quoted rest).map fun (s, rest) => (.text s, rest)
    | '[' :: rest =>
      match skipSpace rest with
      | ']' :: rest => some (.list [], rest)
      | _ => (elements fuel rest).map fun (vs, rest) => (.list vs, rest)
    | '\x7b' :: rest =>
      match skipSpace rest with
      | '\x7d' :: rest => some (.record [], rest)
      | _ => (members fuel rest).map fun (es, rest) => (.record es, rest)
    | 't' :: rest => keyword "true" (.truth true) ('t' :: rest)
    | 'f' :: rest => keyword "false" (.truth false) ('f' :: rest)
    | 'n' :: rest => keyword "null" .null ('n' :: rest)
    | other => number other

def elements : Nat → List Char → Option (List Value × List Char)
  | 0, _ => none
  | fuel + 1, text => do
    let (v, rest) ← value fuel text
    match skipSpace rest with
    | ',' :: rest =>
      let (vs, rest) ← elements fuel rest
      return (v :: vs, rest)
    | ']' :: rest => return ([v], rest)
    | _ => none

def members : Nat → List Char → Option (List (Option String × Value) × List Char)
  | 0, _ => none
  | fuel + 1, text =>
    match skipSpace text with
    | '"' :: rest => do
      let (key, rest) ← quoted rest
      match skipSpace rest with
      | ':' :: rest =>
        let (v, rest) ← value fuel rest
        match skipSpace rest with
        | ',' :: rest =>
          let (es, rest) ← members fuel rest
          return ((key, v) :: es, rest)
        | '\x7d' :: rest => return ([(key, v)], rest)
        | _ => none
      | _ => none
    | _ => none

end

-- A field that no reader asks for is held to the grammar only: its texts may hold half a
-- surrogate pair and its numbers have any size.
def read? (s : String) : Option Value := do
  let text := s.toList
  let (v, rest) ← value (2 * text.length + 2) text
  if (skipSpace rest).isEmpty then return v else none

namespace Value

def namedEntries (entries : List (Option String × Value)) : Option (List (String × Value)) :=
  entries.mapM fun (key, v) => key.map (·, v)

-- Records may also be spelled as lists of their fields in order, no longer than the record.
instance : Readable Value where
  text?
    | .text content => content
    | _ => none
  truth?
    | .truth b => some b
    | _ => none
  items?
    | .list items => some items
    | _ => none
  entries?
    | .record entries => namedEntries entries
    | _ => none
  record? fields v :=
    match v with
    | .record entries => namedEntries entries >>= Readable.pickFields fields
    | .list items =>
      if items.length ≤ fields.length then Readable.alignFields fields items else none
    | _ => none

def isFinite (literal : List Char) : Bool :=
  match Decimal.read? literal with
  | some d => d.isFinite
  | none => false

mutual

-- The value can be kept: its texts are texts, its numbers finite, and it is nested no deeper than
-- `room`.
def fits (room : Nat) : Value → Bool
  | .null => true
  | .truth _ => true
  | .number literal => isFinite literal
  | .text content => content.isSome
  | .list items => 0 < room && allFit (room - 1) items
  | .record entries => 0 < room && allEntriesFit (room - 1) entries

def allFit (room : Nat) : List Value → Bool
  | [] => true
  | v :: rest => fits room v && allFit room rest

def allEntriesFit (room : Nat) : List (Option String × Value) → Bool
  | [] => true
  | (key, v) :: rest => key.isSome && fits room v && allEntriesFit room rest

end

end Value

end CallAtlas.Json
