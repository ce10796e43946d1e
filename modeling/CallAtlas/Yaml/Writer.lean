import CallAtlas.Data.Tree
import CallAtlas.Yaml.Scalar

namespace CallAtlas.Yaml

open CallAtlas.Text

def isPrintable (c : Char) : Bool :=
  let n := c.toNat
  n == 0x0A || (0x20 ≤ n && n ≤ 0x7E) ||
    (0xA0 ≤ n && n != 0xFEFF && n != 0xFFFE && n != 0xFFFF)

structure Traits where
  indicators : Bool := false
  breaks : Bool := false
  special : Bool := false
  edgeSpace : Bool := false
  trailingSpace : Bool := false
  breakSpace : Bool := false
  spaceBreak : Bool := false
  deriving Repr

def firstIndicators : List Char := "#,[]\x7b\x7d&*!|>'\"%@\x60".toList

-- Whether the character begins something else than a plain text in its place.
def isIndicator (before : Option Char) (c : Char) (rest : List Char) : Bool :=
  let blankAfter := rest.head?.all isBlankOrBreak
  match before with
  | none =>
    firstIndicators.contains c || ((c == '?' || c == ':' || c == '-') && blankAfter)
  | some b => (c == ':' && blankAfter) || (c == '#' && isBlankOrBreak b)

def traitsFrom : Option Char → Traits → List Char → Traits
  | _, t, [] => t
  | before, t, c :: rest =>
    let atEdge := before.isNone || rest.isEmpty
    let t :=
      { t with
        indicators := t.indicators || isIndicator before c rest
        breaks := t.breaks || isBreak c
        special := t.special || !isPrintable c
        edgeSpace := t.edgeSpace || (atEdge && (c == ' ' || isBreak c))
        trailingSpace := t.trailingSpace || (rest.isEmpty && c == ' ')
        breakSpace := t.breakSpace || (c == ' ' && before.any isBreak)
        spaceBreak := t.spaceBreak || (isBreak c && before.any (· == ' ')) }
    traitsFrom (some c) t rest

def traits (s : String) : Traits :=
  let marker := startsWith s "---" || startsWith s "..."
  traitsFrom none { indicators := marker } s.toList

inductive Style where
  | plain
  | single
  | double
  | literal
  deriving Repr, DecidableEq

-- A text is written plainly only if it reads back as the same text.
def styleOf (s : String) : Style :=
  let t := traits s
  let quotable := !t.breakSpace && !t.spaceBreak && !t.special
  if containsChar s '\n' then
    if t.trailingSpace || t.spaceBreak || t.special then .double else .literal
  else if !needsQuotes s && quotable && !t.edgeSpace && !t.breaks && !t.indicators then .plain
  else if quotable then .single
  else .double

-- What has been written, last character first, and where it left off.
structure Out where
  text : List Char := []
  column : Nat := 0
  -- The last thing written leaves a blank behind it.
  whitespace : Bool := true
  -- Only indentation and indicators stand on the line.
  indention : Bool := true
  -- The last block kept the empty lines at its end.
  openEnded : Bool := false

namespace Out

def put (o : Out) (c : Char) : Out := { o with text := c :: o.text, column := o.column + 1 }

def putAll (o : Out) (cs : List Char) : Out := cs.foldl put o

-- Ends the line; a break character other than the line feed stands for itself.
def putBreak (o : Out) (c : Char) : Out := { o with text := c :: o.text, column := 0 }

def indicator (o : Out) (mark : String) (needsBlank leavesBlank indents : Bool) : Out :=
  let o := if needsBlank && !o.whitespace then o.put ' ' else o
  let o := o.putAll mark.toList
  { o with whitespace := leavesBlank, indention := o.indention && indents }

def toIndent (o : Out) (indent : Nat) : Out :=
  let o :=
    if !o.indention || o.column > indent || (o.column == indent && !o.whitespace) then
      o.putBreak '\n'
    else o
  let o := o.putAll (List.replicate (indent - o.column) ' ')
  { o with whitespace := true, indention := true }

def closeScalar (o : Out) : Out := { o with whitespace := false, indention := false }

end Out

def writePlain (o : Out) (s : String) : Out :=
  let o := if !o.whitespace && s != "" then o.put ' ' else o
  (o.putAll s.toList).closeScalar

def singleBody (indent : Nat) : Bool → Out → List Char → Out
  | broken, o, [] => if broken then o.toIndent indent else o
  | broken, o, c :: rest =>
    if c == ' ' then singleBody indent broken (o.put ' ') rest
    else if isBreak c then
      let o := if !broken && c == '\n' then o.putBreak '\n' else o
      singleBody indent true { o.putBreak c with indention := true } rest
    else
      let o := if broken then o.toIndent indent else o
      let o := if c == '\'' then o.put '\'' else o
      singleBody indent false { o.put c with indention := false } rest

def writeSingle (indent : Nat) (o : Out) (s : String) : Out :=
  let o := singleBody indent false (o.indicator "'" true false false) s.toList
  (o.indicator "'" false false false).closeScalar

def upperHex (n : Nat) : Char := if n < 10 then Char.ofNat (48 + n) else Char.ofNat (55 + n)

def hexDigits : Nat → Nat → List Char
  | 0, _ => []
  | width + 1, n => hexDigits width (n / 16) ++ [upperHex (n % 16)]

def shortEscapes : List (Nat × Char) :=
  [(0, '0'), (7, 'a'), (8, 'b'), (9, 't'), (10, 'n'), (11, 'v'), (12, 'f'), (13, 'r'), (27, 'e'),
   (0x22, '"'), (0x5C, '\\'), (0x85, 'N'), (0xA0, '_'), (0x2028, 'L'), (0x2029, 'P')]

def escapeChar (c : Char) : List Char :=
  let n := c.toNat
  if isPrintable c && !isBreak c && c != '"' && c != '\\' then [c]
  else
    match shortEscapes.lookup n with
    | some letter => ['\\', letter]
    | none =>
      if n ≤ 0xFF then '\\' :: 'x' :: hexDigits 2 n
      else if n ≤ 0xFFFF then '\\' :: 'u' :: hexDigits 4 n
      else '\\' :: 'U' :: hexDigits 8 n

def writeDouble (o : Out) (s : String) : Out :=
  let o := o.indicator "\"" true false false
  let o := o.putAll (s.toList.flatMap escapeChar)
  (o.indicator "\"" false false false).closeScalar

-- How a block keeps the breaks at its end: one of them is taken for granted.
def chomping (s : String) : String :=
  match s.toList.reverse with
  | [] => "-"
  | [c] => if isBreak c then "+" else "-"
  | c :: d :: _ => if !isBreak c then "-" else if isBreak d then "+" else ""

def literalBody (indent : Nat) : Bool → Out → List Char → Out
  | _, o, [] => o
  | broken, o, c :: rest =>
    if isBreak c then literalBody indent true { o.putBreak c with indention := true } rest
    else
      let o := if broken then o.toIndent indent else o
      literalBody indent false { o.put c with indention := false } rest

def writeLiteral (indent : Nat) (o : Out) (s : String) : Out :=
  let o := o.indicator "|" true false false
  let o :=
    if s.toList.head?.any (fun c => c == ' ' || isBreak c) then o.indicator "2" false false false
    else o
  let keep := chomping s
  let o := o.indicator keep false false false
  let o := { o.putBreak '\n' with openEnded := keep == "+", indention := true, whitespace := true }
  literalBody indent true o s.toList

-- Writes a text whose lines, if it has several, stand two columns further in.
def writeText (level : Nat) (o : Out) (s : String) : Out :=
  let indent := level + 2
  match styleOf s with
  | .plain => writePlain o s
  | .single => writeSingle indent o s
  | .double => writeDouble o s
  | .literal => writeLiteral indent o s

-- A key that can stand on the line of its value: a text of one line and at most 128 bytes.
def isSimpleKey (key : String) : Bool :=
  !key.toList.any isBreak && byteLength key.toList ≤ 128

def writeKey (level : Nat) (o : Out) (key : String) : Out :=
  let o := o.toIndent level
  if isSimpleKey key then (writeText level o key).indicator ":" false false false
  else
    let o := writeText level (o.indicator "?" true false true) key
    (o.toIndent level).indicator ":" true false true

mutual

def writeNode (level : Nat) (inRecord : Bool) (o : Out) : Tree → Out
  | .text s => writeText level o s
  | .list [] => ((o.indicator "[" true true false).indicator "]" false false false).closeScalar
  | .list (item :: rest) =>
    let inner := if inRecord && !o.indention then level else level + 2
    writeItems inner o (item :: rest)
  | .record [] =>
    ((o.indicator "\x7b" true true false).indicator "\x7d" false false false).closeScalar
  | .record (field :: rest) => writeFields (level + 2) o (field :: rest)

def writeItems (level : Nat) (o : Out) : List Tree → Out
  | [] => o
  | t :: rest =>
    let o := (o.toIndent level).indicator "-" true false true
    writeItems level (writeNode level false o t) rest

def writeFields (level : Nat) (o : Out) : List (String × Tree) → Out
  | [] => o
  | (key, t) :: rest =>
    writeFields level (writeNode level true (writeKey level o key) t) rest

end

def writeRoot (o : Out) : Tree → Out
  | .list (item :: rest) => writeItems 0 o (item :: rest)
  | .record (field :: rest) => writeFields 0 o (field :: rest)
  | t => writeNode 0 false o t

def render (t : Tree) : String :=
  let o := (writeRoot {} t).toIndent 0
  let o := if o.openEnded then (o.indicator "..." true false false).toIndent 0 else o
  String.ofList o.text.reverse

end CallAtlas.Yaml
