import CallAtlas.Text.Basic

namespace CallAtlas

open CallAtlas.Text

-- A path keeps its spelling. Two spellings name the same place when their components agree:
-- doubled and trailing separators and inner `.` components do not count.
structure Path where
  text : String
  deriving Repr, DecidableEq

namespace Path

inductive Component where
  | root
  | here
  | parent
  | name (text : String)
  deriving Repr, DecidableEq

def Component.rank : Component → Nat
  | .root => 0
  | .here => 1
  | .parent => 2
  | .name _ => 3

def Component.before : Component → Component → Bool
  | .name a, .name b => decide (a < b)
  | a, b => a.rank < b.rank

def componentsOf (pieces : List String) (first : Bool) : List Component :=
  match pieces with
  | [] => []
  | p :: rest =>
    if p == "" then componentsOf rest false
    else if p == "." then
      if first then .here :: componentsOf rest false else componentsOf rest false
    else if p == ".." then .parent :: componentsOf rest false
    else .name p :: componentsOf rest false

def isAbsolute (p : Path) : Bool := startsWith p.text "/"

def components (p : Path) : List Component :=
  if p.isAbsolute then .root :: componentsOf (split '/' p.text) false
  else componentsOf (split '/' p.text) true

def same (p q : Path) : Bool := p.components == q.components

def componentsBefore : List Component → List Component → Bool
  | [], [] => false
  | [], _ :: _ => true
  | _ :: _, [] => false
  | a :: as, b :: bs => if a.before b then true else if b.before a then false else componentsBefore as bs

def before (p q : Path) : Bool := componentsBefore p.components q.components

-- The path of `q` seen from `p`; an absolute `q` stands for itself.
def join (p : Path) (q : String) : Path :=
  if startsWith q "/" then ⟨q⟩
  else if p.text == "" || endsWith p.text "/" then ⟨p.text ++ q⟩
  else ⟨p.text ++ "/" ++ q⟩

def Component.text : Component → String
  | .root => "/"
  | .here => "."
  | .parent => ".."
  | .name t => t

def ofComponents : List Component → Path
  | .root :: rest => ⟨"/" ++ Text.join "/" (rest.map Component.text)⟩
  | parts => ⟨Text.join "/" (parts.map Component.text)⟩

def fileName? (p : Path) : Option String :=
  match p.components.getLast? with
  | some (.name t) => some t
  | _ => none

-- Cuts a file name at its last dot, unless that dot begins the name.
def cutExtension (name : String) : String × Option String :=
  if name == ".." then (name, none)
  else
    let chars := name.toList
    let tail := (chars.reverse.takeWhile (· != '.')).reverse
    let stem := chars.take (chars.length - tail.length - 1)
    if tail.length == chars.length || stem.isEmpty then (name, none)
    else (String.ofList stem, some (String.ofList tail))

def extension? (p : Path) : Option String := p.fileName?.bind fun n => (cutExtension n).2

def fileStem? (p : Path) : Option String := p.fileName?.map fun n => (cutExtension n).1

def dropIdle (pieces : List String) : List String :=
  (pieces.reverse.dropWhile fun p => p == "" || p == ".").reverse

def withoutLast (p : Path) : Path :=
  match split '/' p.text with
  | [] => ⟨""⟩
  | first :: rest =>
    let kept := dropIdle (dropIdle rest).dropLast
    if p.isAbsolute then ⟨"/" ++ Text.join "/" kept⟩
    else if (dropIdle rest).isEmpty then ⟨""⟩
    else ⟨Text.join "/" (first :: kept)⟩

def parent? (p : Path) : Option Path :=
  match p.components with
  | [] => none
  | [.root] => none
  | _ => some p.withoutLast

def ancestorsFrom : Nat → Path → List Path
  | 0, p => [p]
  | n + 1, p =>
    match p.parent? with
    | some dir => p :: ancestorsFrom n dir
    | none => [p]

-- The path and the directories above it, the nearest first. A relative path ends in the empty one.
def ancestors (p : Path) : List Path := ancestorsFrom p.components.length p

def withFileName (p : Path) (name : String) : Path :=
  match p.fileName?, p.parent? with
  | some _, some dir => dir.join name
  | _, _ => p.join name

def relativeTo? (p base : Path) : Option Path :=
  let ps := p.components
  let bs := base.components
  if bs.isPrefixOf ps then some (ofComponents (ps.drop bs.length)) else none

end Path

end CallAtlas
