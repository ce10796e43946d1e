import CallAtlas.Text.CharClass

namespace CallAtlas

open CallAtlas.Text

def digitValue? (radix : Nat) (c : Char) : Option Nat :=
  if isHexDigit c && hexValue c < radix then some (hexValue c) else none

def natOf? (radix : Nat) : List Char → Option Nat
  | [] => none
  | text =>
    text.foldl
      (fun n c => n.bind fun n => (digitValue? radix c).map fun d => n * radix + d)
      (some 0)

def signOf : List Char → Bool × List Char
  | '-' :: rest => (true, rest)
  | '+' :: rest => (false, rest)
  | text => (false, text)

-- A decimal fraction: its digits as one number, how many of them stand behind the point, and the
-- exponent.
structure Decimal where
  digits : Nat
  places : Nat
  exponent : Int
  deriving Repr, DecidableEq

namespace Decimal

def exponentOf? : List Char → Option Int
  | [] => some 0
  | c :: rest =>
    if c == 'e' || c == 'E' then
      let (negative, digits) := signOf rest
      if digits.all Char.isDigit then
        (natOf? 10 digits).map fun n => if negative then -(n : Int) else (n : Int)
      else none
    else none

def read? (text : List Char) : Option Decimal :=
  let whole := text.takeWhile Char.isDigit
  let (places, tail) :=
    match text.dropWhile Char.isDigit with
    | '.' :: rest => (rest.takeWhile Char.isDigit, rest.dropWhile Char.isDigit)
    | rest => ([], rest)
  match natOf? 10 (whole ++ places), exponentOf? tail with
  | some digits, some exponent => some ⟨digits, places.length, exponent⟩
  | _, _ => none

-- Whether the nearest double is finite: the number is below the middle between the largest double
-- and the power of two above it, which has 309 digits.
def isFinite (d : Decimal) : Bool :=
  let limit := Nat.pow 2 1024 - Nat.pow 2 970
  let scale : Int := d.exponent - d.places
  let size : Int := scale + (Nat.toDigits 10 d.digits).length
  if d.digits == 0 || size ≤ 308 then true
  else if size > 309 then false
  else if 0 ≤ scale then d.digits * Nat.pow 10 scale.toNat < limit
  else d.digits < limit * Nat.pow 10 scale.natAbs

end Decimal

end CallAtlas
