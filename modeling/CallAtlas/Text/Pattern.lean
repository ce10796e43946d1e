import CallAtlas.Text.CharClass

namespace CallAtlas.Text

-- One step of a pattern. `by_` takes exactly what a function recognises. Groups are not nested:
-- `opens` and `closes` bound the text to keep.
inductive Step where
  | one (p : Char → Bool)
  | many (p : Char → Bool)
  | maybe (p : Char → Bool)
  | text (word : List Char)
  | oneOf (words : List (List Char))
  | by_ (recognise : List Char → Option (List Char))
  | edge
  | start
  | finish
  | opens
  | closes

abbrev Pattern := List Step

namespace Pattern

-- A place in a text, the groups closed so far (last first) and where the open group began.
structure State where
  before : Option Char
  rest : List Char
  openAt : List Char := []
  groups : List (List Char) := []

def isEdge (before : Option Char) (rest : List Char) : Bool :=
  (before.any isWord) != (rest.head?.any isWord)

def passText : List Char → Option Char → List Char → Option (Option Char × List Char)
  | [], before, rest => some (before, rest)
  | _ :: _, _, [] => none
  | p :: ps, _, c :: rest => if p = c then passText ps (some c) rest else none

-- Tries `next` after as many accepted characters as possible, then after fewer.
def manyThen (p : Char → Bool) (next : Option Char → List Char → Option State) :
    Option Char → List Char → Option State
  | before, [] => next before []
  | before, c :: rest =>
    if p c then
      match manyThen p next (some c) rest with
      | some s => some s
      | none => next before (c :: rest)
    else next before (c :: rest)

def run : List Step → State → Option State
  | [], s => some s
  | .one p :: steps, s =>
    match s.rest with
    | [] => none
    | c :: rest => if p c then run steps { s with before := some c, rest } else none
  | .many p :: steps, s =>
    manyThen p (fun before rest => run steps { s with before, rest }) s.before s.rest
  | .maybe p :: steps, s =>
    match s.rest with
    | [] => run steps s
    | c :: rest =>
      if p c then
        match run steps { s with before := some c, rest } with
        | some done => some done
        | none => run steps s
      else run steps s
  | .text word :: steps, s =>
    match passText word s.before s.rest with
    | some (before, rest) => run steps { s with before, rest }
    | none => none
  | .oneOf words :: steps, s =>
    words.findSome? fun word =>
      match passText word s.before s.rest with
      | some (before, rest) => run steps { s with before, rest }
      | none => none
  | .by_ recognise :: steps, s =>
    match recognise s.rest with
    | some rest =>
      let taken := s.rest.take (s.rest.length - rest.length)
      run steps { s with before := taken.getLast?.or s.before, rest }
    | none => none
  | .edge :: steps, s => if isEdge s.before s.rest then run steps s else none
  | .start :: steps, s => if s.before.isNone then run steps s else none
  | .finish :: steps, s => if s.rest.isEmpty then run steps s else none
  | .opens :: steps, s => run steps { s with openAt := s.rest }
  | .closes :: steps, s =>
    run steps
      { s with groups := s.openAt.take (s.openAt.length - s.rest.length) :: s.groups }

end Pattern

structure Match where
  lead : Nat
  size : Nat
  groups : List String
  deriving Repr

def Match.group (m : Match) (i : Nat) : String := m.groups.getD i ""

namespace Pattern

def matchHere (p : Pattern) (place : Nat) (before : Option Char) (rest : List Char) :
    Option Match :=
  (run p { before, rest }).map fun s =>
    { lead := place
      size := rest.length - s.rest.length
      groups := s.groups.reverse.map String.ofList }

-- Of all places where a pattern matches the leftmost counts.
def firstFrom (p : Pattern) : Nat → Option Char → List Char → Option Match
  | place, before, [] => p.matchHere place before []
  | place, before, c :: rest =>
    match p.matchHere place before (c :: rest) with
    | some m => some m
    | none => firstFrom p (place + 1) (some c) rest

def find? (p : Pattern) (text : String) : Option Match := p.firstFrom 0 none text.toList

-- The matches from left to right, none beginning inside the one before. `skip` characters of the
-- last match are still to be passed over.
def allFrom (p : Pattern) : Nat → Nat → Option Char → List Char → List Match
  | _, _, _, [] => []
  | skip + 1, place, _, c :: rest => allFrom p skip (place + 1) (some c) rest
  | 0, place, before, c :: rest =>
    match p.matchHere place before (c :: rest) with
    | some m => m :: allFrom p (m.size - 1) (place + 1) (some c) rest
    | none => allFrom p 0 (place + 1) (some c) rest

def findAll (p : Pattern) (text : String) : List Match := p.allFrom 0 0 none text.toList

def occurs (p : Pattern) (text : String) : Bool := (p.find? text).isSome

def notNewline (c : Char) : Bool := c != '\n'

end Pattern

def word (s : String) : Step := .text s.toList

end CallAtlas.Text
