import CallAtlas.Text.Basic

namespace CallAtlas

-- How a pattern is read and matched: whether `?` and `*` stop at separators, and whether a bracket
-- that is never closed stands for itself.
structure GlobRules where
  stopsAtSeparator : Bool := false
  allowsOpenBracket : Bool := false
  deriving Repr, DecidableEq

namespace Glob

-- A part of a pattern. `leading`, `inner` and `trailing` are the double stars at the beginning,
-- between two separators and at the end.
inductive Part where
  | char (c : Char)
  | one
  | many
  | leading
  | inner
  | trailing
  | set (negated : Bool) (ranges : List (Char × Char))
  | choice (branches : List (List Part))
  deriving Repr, Inhabited

-- A group of alternatives that is open: the branches that are complete, and the parts of the
-- current one, last first. The outermost group is the pattern itself.
structure Group where
  done : List (List Part) := []
  current : List Part := []

structure State where
  groups : List Group := [{}]
  last : Option Char := none

namespace State

def push (s : State) (p : Part) : State :=
  match s.groups with
  | g :: rest => { s with groups := { g with current := p :: g.current } :: rest }
  | [] => s

def replaceLast (s : State) (f : Part → Part) : State :=
  match s.groups with
  | g :: rest =>
    match g.current with
    | p :: parts => { s with groups := { g with current := f p :: parts } :: rest }
    | [] => s
  | [] => s

def isFresh (s : State) : Bool :=
  match s.groups with
  | g :: _ => g.current.isEmpty
  | [] => true

def inChoice (s : State) : Bool := s.groups.length > 1

def read (s : State) (c : Char) : State := { s with last := some c }

def openChoice (s : State) : State := { s with groups := {} :: s.groups }

-- A comma parts alternatives inside a group, and is a character outside.
def comma (s : State) : State :=
  match s.groups with
  | g :: outer :: rest =>
    { s with groups := ⟨g.done ++ [g.current.reverse], []⟩ :: outer :: rest }
  | _ => s.push (.char ',')

def closeChoice? (s : State) : Option State :=
  match s.groups with
  | g :: outer :: rest =>
    let choice := Part.choice (g.done ++ [g.current.reverse])
    some { s with groups := { outer with current := choice :: outer.current } :: rest }
  | _ => none

-- What two stars stand for, `rest` being what follows them, and how many characters of `rest` go
-- with them.
def doubleStar (s : State) (rest : List Char) : State × Nat :=
  let plain := (s.push .many).push .many
  if s.isFresh then
    match rest with
    | [] => (s.push .leading, 0)
    | c :: _ => if c == '/' then (s.push .leading, 1) else (plain, 0)
  else if s.last != some '/' && !(s.inChoice && (s.last == some ',' || s.last == some '\x7b')) then
    (plain, 0)
  else
    let become (p : Part) : Part → Part
      | .leading => .leading
      | .trailing => .trailing
      | _ => p
    match rest with
    | [] => (s.replaceLast (become .trailing), 0)
    | c :: _ =>
      if (c == ',' || c == '\x7d') && s.inChoice then (s.replaceLast (become .trailing), 0)
      else if c == '/' then (s.replaceLast (become .inner), 1)
      else (plain, 0)

end State

structure SetState where
  ranges : List (Char × Char) := []
  inRange : Bool := false

def SetState.extend? (s : SetState) (c : Char) : Option SetState :=
  match s.ranges with
  | (a, _) :: rest => if c < a then none else some ⟨(a, c) :: rest, false⟩
  | [] => none

inductive SetResult where
  | read (ranges : List (Char × Char)) (rest : List Char)
  | unclosed
  | badRange

-- Reads the ranges of a set up to its closing bracket; a bracket or hyphen that comes first stands
-- for itself, and so does a hyphen that comes last.
def readSet : Bool → SetState → List Char → SetResult
  | _, _, [] => .unclosed
  | first, s, c :: rest =>
    if c == ']' && !first then
      .read ((if s.inRange then ('-', '-') :: s.ranges else s.ranges).reverse) rest
    else if s.inRange then
      match s.extend? c with
      | some s => readSet false s rest
      | none => .badRange
    else if c == '-' && !first then readSet false { s with inRange := true } rest
    else readSet false ⟨(c, c) :: s.ranges, false⟩ rest

def readParts (rules : GlobRules) : Nat → State → List Char → Option (List Part)
  | 0, _, _ => none
  | fuel + 1, s, text =>
    match text with
    | [] =>
      match s.groups with
      | [g] => some g.current.reverse
      | _ => none
    | '?' :: rest => readParts rules fuel ((s.push .one).read '?') rest
    | '*' :: '*' :: rest =>
      let (s, n) := s.doubleStar rest
      readParts rules fuel (s.read (if n == 0 then '*' else '/')) (rest.drop n)
    | '*' :: rest => readParts rules fuel ((s.push .many).read '*') rest
    | '[' :: rest =>
      let negated := rest.head? == some '!' || rest.head? == some '^'
      match readSet true {} (if negated then rest.drop 1 else rest) with
      | .read ranges after => readParts rules fuel ((s.push (.set negated ranges)).read ']') after
      | .unclosed =>
        if rules.allowsOpenBracket then readParts rules fuel ((s.push (.char '[')).read '[') rest
        else none
      | .badRange => none
    | '\x7b' :: rest => readParts rules fuel (s.openChoice.read '\x7b') rest
    | '\x7d' :: rest =>
      match s.closeChoice? with
      | some s => readParts rules fuel (s.read '\x7d') rest
      | none => none
    | ',' :: rest => readParts rules fuel (s.comma.read ',') rest
    | '\\' :: c :: rest => readParts rules fuel ((s.push (.char c)).read c) rest
    | '\\' :: [] => none
    | c :: rest => readParts rules fuel ((s.push (.char c)).read c) rest

-- Alternatives are multiplied out, so a plain pattern is a sequence of steps. They pass over
-- bytes: `one` is not one character.
inductive Step where
  | byte (b : UInt8)
  | one
  | many
  | leading
  | inner
  | trailing
  | everything
  | set (negated : Bool) (ranges : List (UInt8 × UInt8))
  deriving Repr, DecidableEq

def bytesOf (c : Char) : List UInt8 := (String.singleton c).toUTF8.toList

-- The bytes of a set. A range of longer characters covers their single bytes, and runs from the
-- last byte of the one to the first of the other.
def byteRanges (r : Char × Char) : List (UInt8 × UInt8) :=
  let one (b : UInt8) : UInt8 × UInt8 := (b, b)
  let low := bytesOf r.1
  let high := bytesOf r.2
  if r.1 == r.2 then low.map one
  else
    low.dropLast.map one ++ [(low.getLastD 0, high.headD 0)] ++ (high.drop 1).map one

mutual

def expand : List Part → List (List Step)
  | [] => [[]]
  | p :: rest => (expandPart p).flatMap fun head => (expand rest).map (head ++ ·)

-- The plain patterns of one part. Empty alternatives do not count.
def expandPart : Part → List (List Step)
  | .char c => [(bytesOf c).map .byte]
  | .one => [[.one]]
  | .many => [[.many]]
  | .leading => [[.leading]]
  | .inner => [[.inner]]
  | .trailing => [[.trailing]]
  | .set negated ranges => [[.set negated (ranges.flatMap byteRanges)]]
  | .choice branches =>
    match (expandBranches branches).filter (· != [[]]) with
    | [] => [[]]
    | shapes => shapes.flatten

def expandBranches : List (List Part) → List (List (List Step))
  | [] => []
  | b :: rest => expand b :: expandBranches rest

end

def stepIsSound : Step → Bool
  | .set _ ranges => ranges.all fun r => r.1 ≤ r.2
  | _ => true

def slash : UInt8 := 47

def suffixes : List UInt8 → List (List UInt8)
  | [] => [[]]
  | b :: rest => (b :: rest) :: suffixes rest

def nearSuffixes : List UInt8 → List (List UInt8)
  | [] => [[]]
  | b :: rest => if b == slash then [b :: rest] else (b :: rest) :: nearSuffixes rest

def afterSlashes : List UInt8 → List (List UInt8)
  | [] => []
  | b :: rest => if b == slash then rest :: afterSlashes rest else afterSlashes rest

def stepsMatch (near : Bool) : List Step → List UInt8 → Bool
  | [], text => text.isEmpty
  | .byte b :: steps, text =>
    match text with
    | x :: rest => x == b && stepsMatch near steps rest
    | [] => false
  | .one :: steps, text =>
    match text with
    | x :: rest => !(near && x == slash) && stepsMatch near steps rest
    | [] => false
  | .set negated ranges :: steps, text =>
    match text with
    | x :: rest =>
      (ranges.any fun r => r.1 ≤ x && x ≤ r.2) != negated && stepsMatch near steps rest
    | [] => false
  | .many :: steps, text =>
    (if near then nearSuffixes text else suffixes text).any (stepsMatch near steps)
  | .everything :: steps, text => (suffixes text).any (stepsMatch near steps)
  | .leading :: steps, text =>
    stepsMatch near steps text || (afterSlashes text).any (stepsMatch near steps)
  | .inner :: steps, text =>
    match text with
    | x :: rest =>
      x == slash && (stepsMatch near steps rest || (afterSlashes rest).any (stepsMatch near steps))
    | [] => false
  | .trailing :: steps, text =>
    match text with
    | x :: rest => x == slash && (suffixes rest).any (stepsMatch near steps)
    | [] => false

end Glob

structure Glob where
  rules : GlobRules
  shapes : List (List Glob.Step)
  deriving Repr

namespace Glob

-- Reads a pattern, if it is well formed. Two stars alone match everything.
def read? (rules : GlobRules) (pattern : String) : Option Glob := do
  let text := pattern.toList
  let parts ← readParts rules (text.length + 1) {} text
  let shapes :=
    match parts with
    | [.leading] => [[.everything]]
    | _ => expand parts
  if shapes.all (·.all stepIsSound) then return ⟨rules, shapes⟩ else none

def accepts (g : Glob) (text : String) : Bool :=
  g.shapes.any fun steps => stepsMatch g.rules.stopsAtSeparator steps text.toUTF8.toList

end Glob

end CallAtlas
