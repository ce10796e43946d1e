import CallAtlas.Data.Decimal
import CallAtlas.Text.Basic

namespace CallAtlas.Yaml

open CallAtlas.Text

def isBreak (c : Char) : Bool :=
  c == '\n' || c == '\r' || c.toNat == 0x85 || c.toNat == 0x2028 || c.toNat == 0x2029

def isBlankOrBreak (c : Char) : Bool := c == ' ' || c == '\t' || isBreak c

def isNull (s : String) : Bool := ["null", "Null", "NULL", "~"].contains s

def bool? (s : String) : Option Bool :=
  if ["true", "True", "TRUE"].contains s then some true
  else if ["false", "False", "FALSE"].contains s then some false
  else none

-- Digits behind a leading zero: a text, though it looks like a number.
def isPaddedDigits (s : String) : Bool :=
  let body :=
    match s.toList with
    | '-' :: rest => rest
    | '+' :: rest => rest
    | text => text
  match body with
  | '0' :: d :: rest => (d :: rest).all Char.isDigit
  | _ => false

def fits (negative : Bool) (n : Nat) : Bool :=
  if negative then n ≤ Nat.pow 2 127 else n < Nat.pow 2 128

def isInteger (s : String) : Bool :=
  let (negative, body) := signOf s.toList
  let based (radix : Nat) (digits : List Char) : Bool :=
    match natOf? radix digits with
    | some n => fits negative n
    | none => false
  match body with
  | '0' :: 'x' :: rest => based 16 rest
  | '0' :: 'o' :: rest => based 8 rest
  | '0' :: 'b' :: rest => based 2 rest
  | digits => !isPaddedDigits s && based 10 digits

def infinities : List String := [".inf", ".Inf", ".INF"]

def isFloat (s : String) : Bool :=
  if infinities.contains s || infinities.any (fun i => s == "-" ++ i || s == "+" ++ i) ||
      [".nan", ".NaN", ".NAN"].contains s then true
  else
    match Decimal.read? (signOf s.toList).2 with
    | some d => d.isFinite
    | none => false

-- Whether an unquoted scalar of this spelling would not be read as a text, or only looks like a
-- number.
def needsQuotes (s : String) : Bool :=
  s == "" || isNull s || (bool? s).isSome || isInteger s || isPaddedDigits s || isFloat s

end CallAtlas.Yaml
