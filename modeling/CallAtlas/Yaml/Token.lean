import CallAtlas.Yaml.Cursor

namespace CallAtlas.Yaml

open CallAtlas.Text

inductive Form where
  | plain
  | quoted
  | literal
  | folded
  deriving Repr, DecidableEq

inductive Token where
  | version (major minor : Nat)
  | tagShorthand (handle lead : String)
  | documentStart
  | documentEnd
  | blockListStart
  | blockMapStart
  | blockEnd
  | flowListStart
  | flowListEnd
  | flowMapStart
  | flowMapEnd
  | flowEntry
  | blockEntry
  | key
  | value
  | reference (name : String)
  | anchor (name : String)
  | tag (handle suffix : String)
  | scalar (form : Form) (text : String)
  deriving Repr, DecidableEq

def isNameChar (c : Char) : Bool := c.toNat < 128 && (c.isAlphanum || c == '_' || c == '-')

structure Gap where
  blanks : List Char := []
  lead : List Char := []
  more : List Char := []
  broken : Bool := false

-- One line feed is folded to a space, and of more the first is dropped.
def Gap.fold (g : Gap) : List Char :=
  if g.broken then
    if g.lead == ['\n'] then if g.more.isEmpty then [' '] else g.more
    else g.lead ++ g.more
  else g.blanks

-- Reads blanks and line ends. After a line end, tabs are refused left of column `floor`.
def readGap (floor : Nat) : Nat → Gap → Cursor → Option (Gap × Cursor)
  | 0, g, c => some (g, c)
  | fuel + 1, g, c =>
    if c.seesBlank then
      if g.broken then
        if c.sees '\t' && c.column < floor then none else readGap floor fuel g (c.skip 1)
      else readGap floor fuel { g with blanks := g.blanks ++ c.rest.take 1 } (c.skip 1)
    else if c.seesBreak then
      let (text, next) := c.readBreak
      let g :=
        if g.broken then { g with more := g.more ++ text }
        else { g with blanks := [], lead := text, broken := true }
      readGap floor fuel g next
    else some (g, c)

def escape? : Char → Option Char
  | '0' => some (Char.ofNat 0)
  | 'a' => some (Char.ofNat 7)
  | 'b' => some (Char.ofNat 8)
  | 't' => some '\t'
  | '\t' => some '\t'
  | 'n' => some '\n'
  | 'v' => some (Char.ofNat 11)
  | 'f' => some (Char.ofNat 12)
  | 'r' => some '\r'
  | 'e' => some (Char.ofNat 27)
  | ' ' => some ' '
  | '"' => some '"'
  | '/' => some '/'
  | '\\' => some '\\'
  | 'N' => some (Char.ofNat 0x85)
  | '_' => some (Char.ofNat 0xA0)
  | 'L' => some (Char.ofNat 0x2028)
  | 'P' => some (Char.ofNat 0x2029)
  | _ => none

def escapeWidth? : Char → Option Nat
  | 'x' => some 2
  | 'u' => some 4
  | 'U' => some 8
  | _ => none

def readEscape (c : Cursor) : Option (Char × Cursor) := do
  let sign ← c.rest[1]?
  match escapeWidth? sign with
  | some width =>
    let ds := (c.rest.drop 2).take width
    if ds.length == width && ds.all isHexDigit then
      let n := ds.foldl (fun n d => n * 16 + hexValue d) 0
      if (0xD800 ≤ n && n < 0xE000) || n > 0x10FFFF then none
      else some (Char.ofNat n, c.skip (2 + width))
    else none
  | none => (escape? sign).map (·, c.skip 2)

inductive RunEnd where
  | closing
  | gap
  | joinedLine

def readRun (quote : Char) : Nat → List Char → Cursor → Option (List Char × RunEnd × Cursor)
  | 0, _, _ => none
  | fuel + 1, done, c =>
    match c.rest with
    | [] => some (done.reverse, .gap, c)
    | x :: tail =>
      if isBlankOrBreak x then some (done.reverse, .gap, c)
      else if quote == '\'' && x == '\'' && tail.head? == some '\'' then
        readRun quote fuel ('\'' :: done) (c.skip 2)
      else if x == quote then some (done.reverse, .closing, c)
      else if quote == '"' && x == '\\' then
        if tail.head?.any isBreak then some (done.reverse, .joinedLine, (c.skip 1).readBreak.2)
        else
          match readEscape c with
          | some (e, next) => readRun quote fuel (e :: done) next
          | none => none
      else readRun quote fuel (x :: done) (c.skip 1)

def readQuoted (quote : Char) : Nat → List Char → Cursor → Option (List Char × Cursor)
  | 0, _, _ => none
  | fuel + 1, done, c =>
    if c.seesDocumentMarker || c.isAtEnd then none
    else
      match readRun quote (c.rest.length + 1) [] c with
      | none => none
      | some (run, .closing, next) => some (done ++ run, next.skip 1)
      | some (run, how, next) =>
        let broken :=
          match how with
          | .joinedLine => true
          | _ => false
        if next.sees quote then some (done ++ run, next.skip 1)
        else
          match readGap 0 (next.rest.length + 1) { broken } next with
          | none => none
          | some (g, next) => readQuoted quote fuel (done ++ run ++ g.fold) next

def isFlowMark (c : Char) : Bool :=
  c == ',' || c == '[' || c == ']' || c == '\x7b' || c == '\x7d'

def readWord (inFlow : Bool) : Nat → List Char → Cursor → Option (List Char × Cursor)
  | 0, _, _ => none
  | fuel + 1, done, c =>
    match c.rest with
    | [] => some (done.reverse, c)
    | x :: tail =>
      if isBlankOrBreak x then some (done.reverse, c)
      else if inFlow && x == ':' && tail.head?.any fun y => isFlowMark y || y == '?' then none
      else if (x == ':' && tail.head?.all isBlankOrBreak) || (inFlow && isFlowMark x) then
        some (done.reverse, c)
      else readWord inFlow fuel (x :: done) (c.skip 1)

-- Reads a plain scalar, and says whether it ended after a line end. `floor` is the least column at
-- which it goes on in block context.
def readPlain (inFlow : Bool) (floor : Nat) :
    Nat → List Char → Gap → Cursor → Option (List Char × Bool × Cursor)
  | 0, _, _, _ => none
  | fuel + 1, done, g, c =>
    if c.seesDocumentMarker || c.sees '#' then some (done, g.broken, c)
    else
      match readWord inFlow (c.rest.length + 1) [] c with
      | none => none
      | some (word, next) =>
        let broken := g.broken && word.isEmpty
        let done := if word.isEmpty then done else done ++ g.fold ++ word
        if !(next.seesBlank || next.seesBreak) then some (done, broken, next)
        else
          match readGap floor (next.rest.length + 1) {} next with
          | none => none
          | some (g, next) =>
            if !inFlow && next.column < floor then some (done, g.broken, next)
            else readPlain inFlow floor fuel done g next

inductive Chomping where
  | strip
  | clip
  | keep
  deriving DecidableEq

def chomping? : Option Char → Option Chomping
  | some '+' => some .keep
  | some '-' => some .strip
  | _ => none

def readBlockSigns (c : Cursor) : Option (Chomping × Option Nat × Cursor) :=
  let width? (c : Cursor) : Option (Option Nat × Cursor) :=
    match c.rest with
    | d :: _ =>
      if d.isDigit then if d == '0' then none else some (some (d.toNat - 48), c.skip 1)
      else some (none, c)
    | [] => some (none, c)
  match chomping? c.peek? with
  | some ch => (width? (c.skip 1)).map fun (w, c) => (ch, w, c)
  | none => do
    let (w, c) ← width? c
    match w, chomping? c.peek? with
    | some w, some ch => return (ch, some w, c.skip 1)
    | _, _ => return (.clip, w, c)

-- Line ends before a line of a block scalar, with the indentation seen among them.
structure Margin where
  breaks : List Char := []
  widest : Nat := 0

def readMargin (limit : Option Nat) : Nat → Margin → Cursor → Option (Margin × Cursor)
  | 0, m, c => some (m, c)
  | fuel + 1, m, c =>
    let spaces := (c.rest.takeWhile (· == ' ')).length
    let c :=
      match limit with
      | none => c.skip spaces
      | some n => c.skip (min spaces (n - c.column))
    let m := { m with widest := max m.widest c.column }
    if c.sees '\t' && limit.all (c.column < ·) then none
    else if c.seesBreak then
      let (text, next) := c.readBreak
      readMargin limit fuel { m with breaks := m.breaks ++ text } next
    else some (m, c)

structure BlockText where
  text : List Char := []
  lead : List Char := []
  leadBlank : Bool := false

def readBlockLines (literal : Bool) (column : Nat) :
    Nat → BlockText → List Char → Cursor → Option (BlockText × List Char × Cursor)
  | 0, b, breaks, c => some (b, breaks, c)
  | fuel + 1, b, breaks, c =>
    if c.column == column && !c.isAtEnd then
      let blank := c.seesBlank
      let joint :=
        if !literal && b.lead == ['\n'] && !b.leadBlank && !blank then
          if breaks.isEmpty then [' '] else []
        else b.lead
      let (line, next) := c.readWhile (!isBreak ·)
      let (lead, next) := next.readBreak
      match readMargin (some column) (next.rest.length + 1) {} next with
      | none => none
      | some (m, next) =>
        readBlockLines literal column fuel
          ⟨b.text ++ joint ++ breaks ++ line, lead, blank⟩ m.breaks next
    else some (b, breaks, c)

-- Reads a block scalar whose mark is next, inside a collection that stands at column `indent`.
def readBlock (literal : Bool) (indent : Int) (c : Cursor) : Option (String × Cursor) := do
  let (chomping, width, c) ← readBlockSigns (c.skip 1)
  let c := c.skipBlanks.skipComment
  if !c.endsLine then none
  else
    let c := c.readBreak.2
    let given := width.map fun w => (max indent 0).toNat + w
    let (m, c) ← readMargin given (c.rest.length + 1) {} c
    let column := given.getD (max (max m.widest (indent + 1).toNat) 1)
    let (b, breaks, c) ← readBlockLines literal column (c.rest.length + 1) {} m.breaks c
    let tail :=
      match chomping with
      | .strip => []
      | .clip => b.lead
      | .keep => b.lead ++ breaks
    return (String.ofList (b.text ++ tail), c)

def readName (c : Cursor) : Option (String × Cursor) :=
  let (name, next) := (c.skip 1).readWhile isNameChar
  let ends := next.partsAt 0 || next.peek?.any fun x => "?:,]\x7d%@\x60".toList.contains x
  if name.isEmpty || !ends then none else some (String.ofList name, next)

def isTagChar (c : Char) : Bool := isNameChar c || ";/?:@&=+$.%!~*'()".toList.contains c

def octetWidth? (octet : Nat) : Option Nat :=
  if octet < 0x80 then some 1
  else if 0xC0 ≤ octet && octet < 0xE0 then some 2
  else if 0xE0 ≤ octet && octet < 0xF0 then some 3
  else if 0xF0 ≤ octet && octet < 0xF8 then some 4
  else none

def octet? : List Char → Option Nat
  | '%' :: a :: b :: _ =>
    if isHexDigit a && isHexDigit b then some (hexValue a * 16 + hexValue b) else none
  | _ => none

def escapedSize? (text : List Char) : Option Nat := do
  let first ← octet? text
  let width ← octetWidth? first
  let rest := (List.range (width - 1)).map fun i => octet? (text.drop (3 * (i + 1)))
  if rest.all fun o => o.any fun n => 0x80 ≤ n && n < 0xC0 then some (3 * width) else none

-- Reads the characters of a tag; escaped characters stay as they are written.
def readTagChars (more : Char → Bool) : Nat → List Char → Cursor → Option (List Char × Cursor)
  | 0, done, c => some (done.reverse, c)
  | fuel + 1, done, c =>
    match c.rest with
    | '%' :: _ =>
      match escapedSize? c.rest with
      | some n => readTagChars more fuel ((c.rest.take n).reverse ++ done) (c.skip n)
      | none => none
    | x :: _ =>
      if isTagChar x || more x then readTagChars more fuel (x :: done) (c.skip 1)
      else some (done.reverse, c)
    | [] => some (done.reverse, c)

def isUriExtra (c : Char) : Bool := c == ',' || c == '[' || c == ']'

def readHandle (c : Cursor) : Option (List Char × Cursor) :=
  if c.sees '!' then
    let (name, next) := (c.skip 1).readWhile isNameChar
    if next.sees '!' then some ('!' :: name ++ ['!'], next.skip 1) else some ('!' :: name, next)
  else none

def readTag (inFlow : Bool) (c : Cursor) : Option (Token × Cursor) := do
  let (handle, suffix, c) ←
    if c.rest[1]? == some '<' then do
      let (uri, next) ← readTagChars isUriExtra (c.rest.length + 1) [] (c.skip 2)
      if uri.isEmpty || !next.sees '>' then none else some ([], uri, next.skip 1)
    else do
      let (handle, next) ← readHandle c
      let (suffix, next) ← readTagChars (fun _ => false) (next.rest.length + 1) [] next
      if handle.length > 1 && handle.getLast? == some '!' then
        if suffix.isEmpty then none else some (handle, suffix, next)
      else
        let suffix := handle.drop 1 ++ suffix
        if suffix.isEmpty then some ([], ['!'], next) else some (['!'], suffix, next)
  if c.partsAt 0 || (inFlow && c.sees ',') then
    return (.tag (String.ofList handle) (String.ofList suffix), c)
  else none

def readVersionNumber (c : Cursor) : Option (Nat × Cursor) :=
  let (ds, next) := c.readWhile Char.isDigit
  if ds.isEmpty || ds.length > 9 then none
  else some (ds.foldl (fun n d => n * 10 + (d.toNat - 48)) 0, next)

def readVersion (c : Cursor) : Option (Token × Cursor) := do
  let (major, c) ← readVersionNumber c.skipBlanks
  if !c.sees '.' then none
  else
    let (minor, c) ← readVersionNumber (c.skip 1)
    return (.version major minor, c)

def readShorthand (c : Cursor) : Option (Token × Cursor) := do
  let (handle, c) ← readHandle c.skipBlanks
  if handle.length > 1 && handle.getLast? != some '!' then none
  else if !c.seesBlank then none
  else
    let c := c.skipBlanks
    let (lead, c) ← readTagChars isUriExtra (c.rest.length + 1) [] c
    if lead.isEmpty || !c.partsAt 0 then none
    else return (.tagShorthand (String.ofList handle) (String.ofList lead), c)

def readDirective (c : Cursor) : Option (Token × Cursor) := do
  let (name, c) := (c.skip 1).readWhile isNameChar
  if name.isEmpty || !c.partsAt 0 then none
  else
    let (token, c) ←
      match String.ofList name with
      | "YAML" => readVersion c
      | "TAG" => readShorthand c
      | _ => none
    let c := c.skipBlanks.skipComment
    if c.endsLine then return (token, c.readBreak.2) else none

end CallAtlas.Yaml
