import CallAtlas.Yaml.Scalar

namespace CallAtlas.Yaml

-- Columns count characters. Line ends are read as line feeds, line and paragraph separators as
-- they are.
structure Cursor where
  rest : List Char
  index : Nat := 0
  line : Nat := 0
  column : Nat := 0
  deriving Repr

namespace Cursor

def peek? (c : Cursor) : Option Char := c.rest.head?

def isAtEnd (c : Cursor) : Bool := c.rest.isEmpty

def sees (c : Cursor) (x : Char) : Bool := c.rest.head? == some x

def partsAt (c : Cursor) (n : Nat) : Bool := (c.rest[n]?).all isBlankOrBreak

def seesBlank (c : Cursor) : Bool := c.rest.head?.any fun x => x == ' ' || x == '\t'

def seesBreak (c : Cursor) : Bool := c.rest.head?.any isBreak

def endsLine (c : Cursor) : Bool := c.rest.head?.all isBreak

def skip (n : Nat) (c : Cursor) : Cursor :=
  { c with rest := c.rest.drop n, index := c.index + n, column := c.column + n }

def readBreak (c : Cursor) : List Char × Cursor :=
  let next (n : Nat) : Cursor :=
    { rest := c.rest.drop n, index := c.index + n, line := c.line + 1, column := 0 }
  match c.rest with
  | '\r' :: '\n' :: _ => (['\n'], next 2)
  | x :: _ =>
    if x.toNat == 0x2028 || x.toNat == 0x2029 then ([x], next 1)
    else if isBreak x then (['\n'], next 1)
    else ([], c)
  | [] => ([], c)

def readWhile (p : Char → Bool) (c : Cursor) : List Char × Cursor :=
  let taken := c.rest.takeWhile p
  (taken, c.skip taken.length)

def skipWhile (p : Char → Bool) (c : Cursor) : Cursor := (c.readWhile p).2

def skipBlanks (c : Cursor) : Cursor := c.skipWhile fun x => x == ' ' || x == '\t'

def skipComment (c : Cursor) : Cursor := if c.sees '#' then c.skipWhile (!isBreak ·) else c

def seesMarker (marker : String) (c : Cursor) : Bool :=
  c.column == 0 && marker.toList.isPrefixOf c.rest && c.partsAt 3

def seesDocumentMarker (c : Cursor) : Bool := c.seesMarker "---" || c.seesMarker "..."

end Cursor

end CallAtlas.Yaml
