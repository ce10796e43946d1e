import CallAtlas.Text.Basic

namespace CallAtlas.Go

open CallAtlas.Text

inductive TokenKind where
  | word
  | integer
  | float
  | imaginary
  | rune
  | interpreted
  | raw
  | mark
  | stray
  | eof
  deriving Repr, DecidableEq

def isNamePart (c : Char) : Bool := isIdentStart c || isIdentPart c

-- `newline` and `comments` tell of what stands between the token and the one before. Which words
-- are keywords depends on their place, so it is not told here.
structure Token where
  kind : TokenKind
  text : String
  start : Nat
  stop : Nat
  line : Nat
  newline : Bool
  comments : List String
  plain : kind = .word → text.toList.all isNamePart = true
  deriving Repr

def Token.ending (start line : Nat) (newline : Bool) (comments : List String) : Token :=
  ⟨.eof, "", start, start, line, newline, comments, nofun⟩

namespace Lexeme

def moreDigits (p : Char → Bool) : List Char → List Char
  | [] => []
  | [c] => if p c then [] else [c]
  | c :: d :: rest =>
    if p c then moreDigits p (d :: rest)
    else if c = '_' && p d then moreDigits p rest
    else c :: d :: rest

def digits (p : Char → Bool) : List Char → Option (List Char)
  | [] => none
  | c :: rest => if p c then some (moreDigits p rest) else none

def isOctal (c : Char) : Bool := '0' ≤ c && c ≤ '7'

def isBinary (c : Char) : Bool := c == '0' || c == '1'

def optionalBar : List Char → List Char
  | '_' :: rest => rest
  | text => text

def exponent (lower upper : Char) : List Char → Option (List Char)
  | [] => none
  | c :: rest =>
    if c == lower || c == upper then
      match rest with
      | '+' :: rest => digits Char.isDigit rest
      | '-' :: rest => digits Char.isDigit rest
      | rest => digits Char.isDigit rest
    else none

def integerEnds : List Char → List (List Char)
  | [] => []
  | '0' :: rest =>
    let based :=
      match rest with
      | b :: rest =>
        if b == 'x' || b == 'X' then (digits isHexDigit (optionalBar rest)).toList
        else if b == 'o' || b == 'O' then (digits isOctal (optionalBar rest)).toList
        else if b == 'b' || b == 'B' then (digits isBinary (optionalBar rest)).toList
        else []
      | [] => []
    rest :: (digits isOctal (optionalBar rest)).toList ++ based
  | c :: rest => if c.isDigit then [moreDigits Char.isDigit rest] else []

def withExponent (rest : List Char) : List Char := (exponent 'e' 'E' rest).getD rest

def floatEnds (text : List Char) : List (List Char) :=
  let decimal :=
    match text with
    | '.' :: rest => ((digits Char.isDigit rest).map withExponent).toList
    | _ =>
      match digits Char.isDigit text with
      | some ('.' :: rest) => [withExponent ((digits Char.isDigit rest).getD rest)]
      | some rest => (exponent 'e' 'E' rest).toList
      | none => []
  let hexadecimal :=
    match text with
    | '0' :: x :: rest =>
      if x == 'x' || x == 'X' then
        let mantissa :=
          match rest with
          | '.' :: rest => digits isHexDigit rest
          | rest =>
            match digits isHexDigit (optionalBar rest) with
            | some ('.' :: rest) => some ((digits isHexDigit rest).getD rest)
            | other => other
        (mantissa.bind (exponent 'p' 'P')).toList
      else []
    | _ => []
  decimal ++ hexadecimal

def imaginaryEnds (text : List Char) : List (List Char) :=
  ((digits Char.isDigit text).toList ++ integerEnds text ++ floatEnds text).filterMap fun rest =>
    match rest with
    | 'i' :: rest => some rest
    | _ => none

def isNumeric (c : Char) : Bool := c.isAlphanum || c == '_' || c == '.' || c == '+' || c == '-'

-- The longer of two readings of a text of a size, and of equal ones the earlier.
def longer (size : Nat) (best : Option (TokenKind × Nat)) (e : TokenKind × List Char) :
    Option (TokenKind × Nat) :=
  let read := (e.1, size - e.2.length)
  match best with
  | none => some read
  | some b => if b.2 < read.2 then some read else best

def number (text : List Char) : Option (TokenKind × Nat) :=
  let text := text.takeWhile isNumeric
  let ends :=
    (integerEnds text).map (TokenKind.integer, ·) ++ (floatEnds text).map (TokenKind.float, ·) ++
      (imaginaryEnds text).map (TokenKind.imaginary, ·)
  ends.foldl (longer text.length) none

def allHex (n : Nat) (text : List Char) : Bool :=
  (text.take n).length == n && (text.take n).all isHexDigit

def interpretedSize : List Char → Option Nat
  | [] => none
  | '"' :: _ => some 1
  | '\n' :: _ => none
  | '\\' :: c :: rest =>
    if c == 'x' && !allHex 2 rest then none
    else if c == 'u' && !allHex 4 rest then none
    else if c == 'U' && !allHex 8 rest then none
    else (interpretedSize rest).map (· + 2)
  | '\\' :: [] => none
  | _ :: rest => (interpretedSize rest).map (· + 1)

def rawSize : List Char → Option Nat
  | [] => none
  | c :: rest => if c == '\x60' then some 1 else (rawSize rest).map (· + 1)

def runeEscape : List Char → Option (List Char)
  | [] => none
  | c :: rest =>
    if c == 'x' then if allHex 2 rest then some (rest.drop 2) else none
    else if c == 'u' then if allHex 4 rest then some (rest.drop 4) else none
    else if c == 'U' then if allHex 8 rest then some (rest.drop 8) else none
    else if isOctal c then
      if (rest.take 2).length == 2 && (rest.take 2).all isOctal then some (rest.drop 2) else none
    else if "abfnrtv\\'\"".toList.contains c then some rest
    else none

-- No rune has more characters after its opening quote: an escape with eight digits, and a quote.
def longestRune : Nat := 11

def runeEnd : List Char → Option (List Char)
  | [] => none
  | c :: rest =>
    let body :=
      if c == '\\' then runeEscape rest
      else if c == '\'' then none
      else some rest
    match body with
    | some (q :: rest) => if q == '\'' then some rest else none
    | _ => none

def runeSize (text : List Char) : Option Nat :=
  let text := text.take longestRune
  (runeEnd text).map fun rest => text.length - rest.length

def blockSize : List Char → Option Nat
  | [] => none
  | '*' :: '/' :: _ => some 2
  | _ :: rest => (blockSize rest).map (· + 1)

-- Operators and punctuation, longer ones before those they begin with.
def marks : List String :=
  ["&^=", "<<=", ">>=", "...", "&&", "||", "<-", "++", "--", "==", "!=", "<=", ">=", ":=", "+=",
   "-=", "*=", "/=", "%=", "&=", "|=", "^=", "<<", ">>", "&^", "+", "-", "*", "/", "%", "&", "|",
   "^", "<", ">", "=", "!", "~", "(", "[", "\x7b", ",", ";", ")", "]", "\x7d", ".", ":", "\x00"]

def markSize (text : List Char) : Option Nat :=
  (marks.find? fun m => m.toList.isPrefixOf text).map String.length

inductive Found where
  | blank
  | newline
  | comment (size : Nat)
  | token (kind : TokenKind) (size : Nat)

def isSpace (c : Char) : Bool :=
  c == ' ' || c == '\t' || c == '\r' || c == '\x0b' || c == '\x0c'

-- A token of a known size, or else a character that begins none.
def tokenOrStray (kind : TokenKind) : Option Nat → Found
  | some size => .token kind size
  | none => .token .stray 1

def find (c : Char) (rest : List Char) : Found :=
  let text := c :: rest
  if c == '\n' then .newline
  else if isSpace c then .blank
  else if c == '/' && rest.head? == some '/' then .comment ((rest.takeWhile (· != '\n')).length + 1)
  else if c == '/' && rest.head? == some '*' then
    match blockSize (rest.drop 1) with
    | some size => .comment (size + 2)
    | none => tokenOrStray .mark (markSize text)
  else if isIdentStart c then .token .word ((rest.takeWhile isIdentPart).length + 1)
  else if c == '"' then tokenOrStray .interpreted ((interpretedSize rest).map (· + 1))
  else if c == '\x60' then tokenOrStray .raw ((rawSize rest).map (· + 1))
  else if c == '\'' then tokenOrStray .rune ((runeSize rest).map (· + 1))
  else
    match number text with
    | some (kind, size) => .token kind size
    | none => tokenOrStray .mark (markSize text)

theorem longer_kind {P : TokenKind → Prop} {size : Nat} {ends : List (TokenKind × List Char)}
    (kinds : ∀ e ∈ ends, P e.1) (best : Option (TokenKind × Nat)) (old : ∀ b ∈ best, P b.1) :
    ∀ b ∈ ends.foldl (longer size) best, P b.1 := by
  induction ends generalizing best with
  | nil => exact old
  | cons e rest ih =>
    have first : P e.1 := kinds e List.mem_cons_self
    apply ih (fun e member => kinds e (List.mem_cons_of_mem _ member)) _
    intro b member
    cases best with
    | none => cases member; exact first
    | some previous =>
      simp only [longer] at member
      split at member
      · cases member; exact first
      · exact old b member

theorem number_kind {text : List Char} {kind : TokenKind} {size : Nat}
    (found : number text = some (kind, size)) : kind ∈ [.integer, .float, .imaginary] := by
  refine longer_kind (P := (· ∈ [.integer, .float, .imaginary])) ?_ none nofun (kind, size) found
  intro e member
  simp only [List.mem_append, List.mem_map] at member
  rcases member with (⟨_, _, rfl⟩ | ⟨_, _, rfl⟩) | ⟨_, _, rfl⟩ <;> simp

theorem tokenOrStray_ne_word {given kind : TokenKind} {size : Option Nat} {n : Nat}
    (other : given ≠ .word) (found : tokenOrStray given size = .token kind n) : kind ≠ .word := by
  cases size with
  | none => cases found; exact nofun
  | some size => cases found; exact other

theorem plain_of_find {c : Char} {rest : List Char} {kind : TokenKind} {size : Nat}
    (found : find c rest = .token kind size) (word : kind = .word) :
    ((c :: rest).take size).all isNamePart = true := by
  unfold find at found
  dsimp only at found
  repeat' split at found
  any_goals cases found
  any_goals exact absurd word (tokenOrStray_ne_word (by decide) found)
  · rename_i start
    rw [List.take_succ_cons, ← List.prefix_iff_eq_take.mp (List.takeWhile_prefix isIdentPart),
      List.all_cons, List.all_eq_true.mpr]
    · simp [isNamePart, start]
    · intro d member
      simp [isNamePart, List.all_eq_true.mp List.all_takeWhile d member]
  · rename_i number
    subst word
    exact absurd (number_kind number) (by decide)

end Lexeme

structure Place where
  at_ : Nat
  line : Nat
  newline : Bool := false
  comments : List String := []

def Place.pass (p : Place) (c : Char) : Place :=
  { p with at_ := p.at_ + c.utf8Size, line := if c = '\n' then p.line + 1 else p.line }

-- The tokens of a text, the end of input included. `skip` characters belong to what was read last.
def tokensFrom : Nat → Place → List Char → List Token
  | _, p, [] => [.ending p.at_ p.line p.newline p.comments]
  | skip + 1, p, c :: rest => tokensFrom skip (p.pass c) rest
  | 0, p, c :: rest =>
    match found : Lexeme.find c rest with
    | .blank => tokensFrom 0 (p.pass c) rest
    | .newline => tokensFrom 0 { p.pass c with newline := true } rest
    | .comment size =>
      let taken := (c :: rest).take size
      tokensFrom (taken.length - 1)
        { p.pass c with comments := p.comments ++ [String.ofList taken] } rest
    | .token kind size =>
      let taken := (c :: rest).take size
      ⟨kind, String.ofList taken, p.at_, p.at_ + byteLength taken, p.line, p.newline,
          p.comments, fun word => by simpa using Lexeme.plain_of_find found word⟩ ::
        tokensFrom (taken.length - 1) { p.pass c with newline := false, comments := [] } rest

def tokens (source : String) : List Token :=
  match source.toList with
  | [] => tokensFrom 0 ⟨0, 1, false, []⟩ []
  | c :: rest =>
    if c.toNat == 0xFEFF then tokensFrom 0 ⟨3, 1, false, []⟩ rest
    else tokensFrom 0 ⟨0, 1, false, []⟩ (c :: rest)

end CallAtlas.Go
