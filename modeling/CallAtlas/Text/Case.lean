import CallAtlas.Text.CaseTable
import CallAtlas.Text.CharClass

namespace CallAtlas.Text

namespace CaseTable

def CaseRun.covers (run : CaseRun) (n : Nat) : Bool :=
  run.first ≤ n && n ≤ run.last && (n - run.first) % run.stride == 0

def shift (runs : List CaseRun) (n : Nat) : Nat :=
  match runs.find? (·.covers n) with
  | some run => (n + run.shift : Int).toNat
  | none => n

end CaseTable

-- The first letter that a search passing over ignorable characters meets is a cased one.
def meetsCased : List Char → Bool
  | [] => false
  | c :: rest =>
    if isIgnorable c then meetsCased rest else isCased c
where
  isIgnorable (c : Char) : Bool := inRanges CaseTable.ignorable c.toNat
  isCased (c : Char) : Bool := inRanges CaseTable.cased c.toNat

-- The lower case of one letter, given the letters before it (nearest first) and after it.
def lowerChar (before : List Char) (c : Char) (after : List Char) : List Char :=
  if c.toNat < 128 then [c.toLower]
  else if c.toNat == 0x130 then [Char.ofNat 0x69, Char.ofNat 0x307]
  else if c.toNat == 0x3A3 then
    if meetsCased before && !meetsCased after then [Char.ofNat 0x3C2] else [Char.ofNat 0x3C3]
  else [Char.ofNat (CaseTable.shift CaseTable.lower c.toNat)]

def lowerChars : List Char → List Char → List Char
  | _, [] => []
  | before, c :: rest => lowerChar before c rest ++ lowerChars (c :: before) rest

def toLower (s : String) : String := String.ofList (lowerChars [] s.toList)

def upperChar (c : Char) : List Char :=
  if c.toNat < 128 then [c.toUpper]
  else
    match CaseTable.upperMany.find? (·.1 == c.toNat) with
    | some entry => entry.2.map Char.ofNat
    | none => [Char.ofNat (CaseTable.shift CaseTable.upper c.toNat)]

def toUpper (s : String) : String := String.ofList (s.toList.flatMap upperChar)

end CallAtlas.Text
