import CallAtlas.Data.Decimal
import CallAtlas.Toml.Value

namespace CallAtlas.Toml

open CallAtlas.Text

def isSpace (c : Char) : Bool := c == ' ' || c == '\t'

def isInline (c : Char) : Bool := c == '\t' || (0x20 ≤ c.toNat && c.toNat != 0x7F)

def skipSpace (text : List Char) : List Char := text.dropWhile isSpace

def afterBreak? : List Char → Option (List Char)
  | '\n' :: rest => some rest
  | '\r' :: '\n' :: rest => some rest
  | _ => none

def escape? : Char → Option Char
  | 'b' => some (Char.ofNat 8)
  | 't' => some '\t'
  | 'n' => some '\n'
  | 'f' => some (Char.ofNat 12)
  | 'r' => some '\r'
  | '"' => some '"'
  | '\\' => some '\\'
  | _ => none

def numbered? (ds : List Char) : Option Char := do
  let n ← natOf? 16 ds
  if (0xD800 ≤ n && n < 0xE000) || n > 0x10FFFF then none else some (Char.ofNat n)

def readEscape : List Char → Option (Char × List Char)
  | 'u' :: rest =>
    if rest.length < 4 then none else (numbered? (rest.take 4)).map (·, rest.drop 4)
  | 'U' :: rest =>
    if rest.length < 8 then none else (numbered? (rest.take 8)).map (·, rest.drop 8)
  | c :: rest => (escape? c).map (·, rest)
  | [] => none

def readBasic : Nat → List Char → List Char → Option (List Char × List Char)
  | 0, _, _ => none
  | fuel + 1, done, text =>
    match text with
    | [] => none
    | '"' :: rest => some (done.reverse, rest)
    | '\\' :: rest =>
      match readEscape rest with
      | some (c, rest) => readBasic fuel (c :: done) rest
      | none => none
    | c :: rest => if isInline c then readBasic fuel (c :: done) rest else none

def readLiteral (text : List Char) : Option (List Char × List Char) :=
  let body := text.takeWhile fun c => isInline c && c != '\''
  match text.drop body.length with
  | '\'' :: rest => some (body, rest)
  | _ => none

-- What is next in a text of several lines: its closing quotes with those that belong to the text,
-- or a quote of the text.
def closing? (quote : Char) (text : List Char) : Option (Nat × List Char) :=
  let run := (text.takeWhile (· == quote)).length
  if run < 3 then none else some (run - 3, text.drop run)

-- A text of several lines, after its opening quotes. In double quotes, a backslash at the end of a
-- line joins it to the next word. At most two quotes may stand before the closing ones.
def readLines (quote : Char) : Nat → List Char → List Char → Option (List Char × List Char)
  | 0, _, _ => none
  | fuel + 1, done, text =>
    match afterBreak? text with
    | some rest => readLines quote fuel ('\n' :: done) rest
    | none =>
      match text with
      | [] => none
      | c :: rest =>
        if c == quote then
          match closing? quote text with
          | some (more, after) =>
            if more ≤ 2 then some (done.reverse ++ List.replicate more quote, after) else none
          | none => readLines quote fuel (c :: done) rest
        else if c == '\\' && quote == '"' then
          match afterBreak? (skipSpace rest) with
          | some after =>
            readLines quote fuel done
              (after.dropWhile fun x => isSpace x || x == '\n' || x == '\r')
          | none =>
            match readEscape rest with
            | some (e, rest) => readLines quote fuel (e :: done) rest
            | none => none
        else if isInline c then readLines quote fuel (c :: done) rest
        else none

def readText (text : List Char) : Option (String × List Char) :=
  let several (quote : Char) (rest : List Char) : Option (String × List Char) :=
    (readLines quote (rest.length + 1) [] ((afterBreak? rest).getD rest)).map fun (s, rest) =>
      (String.ofList s, rest)
  match text with
  | '"' :: '"' :: '"' :: rest => several '"' rest
  | '\'' :: '\'' :: '\'' :: rest => several '\'' rest
  | '"' :: rest =>
    (readBasic (rest.length + 1) [] rest).map fun (s, rest) => (String.ofList s, rest)
  | '\'' :: rest => (readLiteral rest).map fun (s, rest) => (String.ofList s, rest)
  | _ => none

-- Digits, with single underscores between them allowed; without the underscores.
def separated? (p : Char → Bool) : List Char → Option (List Char)
  | [] => none
  | [c] => if p c then some [c] else none
  | c :: '_' :: rest => if p c then (separated? p rest).map (c :: ·) else none
  | c :: rest => if p c then (separated? p rest).map (c :: ·) else none

def whole? (text : List Char) : Option (List Char) := do
  let ds ← separated? Char.isDigit text
  match ds with
  | '0' :: _ :: _ => none
  | _ => some ds

-- Integers of 64 bits: decimal with a sign, or in another radix without.
def isInteger (word : List Char) : Bool :=
  let based (radix : Nat) (p : Char → Bool) (text : List Char) : Bool :=
    ((separated? p text).bind (natOf? radix)).any (· < Nat.pow 2 63)
  match word with
  | '0' :: 'x' :: rest => based 16 isHexDigit rest
  | '0' :: 'o' :: rest => based 8 (fun c => '0' ≤ c && c ≤ '7') rest
  | '0' :: 'b' :: rest => based 2 (fun c => c == '0' || c == '1') rest
  | _ =>
    let (negative, body) := signOf word
    ((whole? body).bind (natOf? 10)).any fun n =>
      if negative then n ≤ Nat.pow 2 63 else n < Nat.pow 2 63

def exponent? (text : List Char) : Option (List Char) :=
  let (negative, body) := signOf text
  (separated? Char.isDigit body).map fun ds => if negative then '-' :: ds else ds

def fraction? (text : List Char) : Option (List Char) :=
  let isMark (c : Char) : Bool := c == 'e' || c == 'E'
  match text with
  | '.' :: rest => do
    let ds ← separated? Char.isDigit (rest.takeWhile (!isMark ·))
    match rest.dropWhile (!isMark ·) with
    | [] => return '.' :: ds
    | _ :: tail => return '.' :: ds ++ 'e' :: (← exponent? tail)
  | e :: tail => if isMark e then (exponent? tail).map ('e' :: ·) else none
  | [] => none

-- Numbers with a fraction or an exponent, infinities and no-numbers. A positive number must be
-- within the doubles.
def isFloat (word : List Char) : Bool :=
  let (negative, body) := signOf word
  if body == "inf".toList || body == "nan".toList then true
  else
    let isPart (c : Char) : Bool := c.isDigit || c == '_'
    match whole? (body.takeWhile isPart), fraction? (body.dropWhile isPart) with
    | some whole, some tail =>
      negative || (Decimal.read? (whole ++ tail)).any Decimal.isFinite
    | _, _ => false

def twoDigits? (lowest limit : Nat) (text : List Char) : Option (Nat × List Char) :=
  match text with
  | a :: b :: rest =>
    if a.isDigit && b.isDigit then
      let n := (a.toNat - 48) * 10 + (b.toNat - 48)
      if lowest ≤ n && n ≤ limit then some (n, rest) else none
    else none
  | _ => none

def expect? (c : Char) : List Char → Option (List Char)
  | x :: rest => if x == c then some rest else none
  | [] => none

def isLeapYear (y : Nat) : Bool := y % 4 == 0 && (y % 100 != 0 || y % 400 == 0)

def daysIn (year month : Nat) : Nat :=
  if month == 2 then if isLeapYear year then 29 else 28
  else if [4, 6, 9, 11].contains month then 30
  else 31

def afterDate? (text : List Char) : Option (List Char) := do
  let year := text.take 4
  if year.length != 4 || !year.all Char.isDigit then none
  else
    let y := year.foldl (fun n c => n * 10 + (c.toNat - 48)) 0
    let rest ← expect? '-' (text.drop 4)
    let (month, rest) ← twoDigits? 1 12 rest
    let rest ← expect? '-' rest
    let (_, rest) ← twoDigits? 1 (daysIn y month) rest
    return rest

def afterTime? (text : List Char) : Option (List Char) := do
  let (_, rest) ← twoDigits? 0 23 text
  let rest ← expect? ':' rest
  let (_, rest) ← twoDigits? 0 59 rest
  let rest ← expect? ':' rest
  let (_, rest) ← twoDigits? 0 60 rest
  match rest with
  | '.' :: tail =>
    if tail.head?.any Char.isDigit then return tail.dropWhile Char.isDigit else none
  | _ => return rest

def isOffset (text : List Char) : Bool :=
  match text with
  | [] => true
  | ['Z'] => true
  | ['z'] => true
  | sign :: rest =>
    (sign == '+' || sign == '-') &&
      match twoDigits? 0 23 rest with
      | some (_, ':' :: rest) => (twoDigits? 0 59 rest).any (·.2.isEmpty)
      | _ => false

def isTime (word : List Char) : Bool :=
  match afterDate? word with
  | some [] => true
  | some (mark :: rest) =>
    (mark == 'T' || mark == 't' || mark == ' ') && (afterTime? rest).any isOffset
  | none => afterTime? word == some []

def isWordChar (c : Char) : Bool :=
  c.toNat < 128 && (c.isAlphanum || c == '+' || c == '-' || c == '_' || c == '.' || c == ':')

-- A bare word; a date and a time of day may be parted by a space.
def takeWord (text : List Char) : List Char × List Char :=
  let word := text.takeWhile isWordChar
  let rest := text.drop word.length
  match afterDate? word, rest with
  | some [], ' ' :: more =>
    let second := more.takeWhile isWordChar
    if second.head?.any Char.isDigit then (word ++ ' ' :: second, more.drop second.length)
    else (word, rest)
  | _, _ => (word, rest)

def readWord (text : List Char) : Option (Value × List Char) :=
  let (word, rest) := takeWord text
  if word == "true".toList then some (.truth true, rest)
  else if word == "false".toList then some (.truth false, rest)
  else if isTime word then some (.time, rest)
  else if isInteger word || isFloat word then some (.number, rest)
  else none

end CallAtlas.Toml
