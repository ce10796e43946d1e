import CallAtlas.Files.Body
import CallAtlas.Path

namespace CallAtlas

open CallAtlas.Text

abbrev Place := List String

inductive Entry where
  | dir
  | file (body : Body)
  deriving Repr, DecidableEq

structure Disk where
  entries : List (Place × Entry) := []
  start : Place := []
  deriving Repr

namespace Disk

-- What is at a place; the root directory is always there.
def entry? (d : Disk) (at_ : Place) : Option Entry :=
  if at_.isEmpty then some .dir else d.entries.lookup at_

def isDirAt (d : Disk) (at_ : Place) : Bool := d.entry? at_ == some .dir

def existsAt (d : Disk) (at_ : Place) : Bool := (d.entry? at_).isSome

def bodyAt? (d : Disk) (at_ : Place) : Option Body :=
  match d.entry? at_ with
  | some (.file body) => some body
  | _ => none

def put (d : Disk) (at_ : Place) (e : Entry) : Disk :=
  if d.existsAt at_ then
    { d with entries := d.entries.map fun old => if old.1 == at_ then (at_, e) else old }
  else { d with entries := d.entries ++ [(at_, e)] }

-- Paths are followed step by step: `..` leads to the directory above, and every step but the
-- last must be a directory.
def follow (d : Disk) : Place → List Path.Component → Option Place
  | at_, [] => some at_
  | _, .root :: rest => follow d [] rest
  | at_, .here :: rest => if d.isDirAt at_ then follow d at_ rest else none
  | at_, .parent :: rest => if d.isDirAt at_ then follow d at_.dropLast rest else none
  | at_, .name n :: rest => if d.isDirAt at_ then follow d (at_ ++ [n]) rest else none

def locate? (d : Disk) (p : Path) : Option Place :=
  if p.text == "" then none else d.follow d.start p.components

-- A path that ends in a separator names a directory only.
def namesDirectory (p : Path) : Bool := endsWith p.text "/" || endsWith p.text "/."

def at? (d : Disk) (p : Path) : Option Entry := do
  let place ← d.locate? p
  match ← d.entry? place with
  | .dir => some .dir
  | .file body => if namesDirectory p then none else some (.file body)

def contains (d : Disk) (p : Path) : Bool := (d.at? p).isSome

def read? (d : Disk) (p : Path) : Option Body :=
  match d.at? p with
  | some (.file body) => some body
  | _ => none

def isFile (d : Disk) (p : Path) : Bool := (d.read? p).isSome

def pathOf (at_ : Place) : Path := ⟨"/" ++ join "/" at_⟩

def canonical? (d : Disk) (p : Path) : Option Path := do
  let _ ← d.at? p
  let place ← d.locate? p
  return pathOf place

def fileNames (d : Disk) (dir : Path) : List String :=
  match d.locate? dir with
  | none => []
  | some place =>
    let names := d.entries.filterMap fun (p, e) =>
      match e with
      | .file _ => if p.dropLast == place then p.getLast? else none
      | .dir => none
    names.mergeSort fun a b => decide (a ≤ b)

-- Makes the directories along a path that are not there. A file in the way is a fault, and what has
-- been made before it stays.
def makeAlong (d : Disk) : Place → List Path.Component → Except Disk Disk
  | _, [] => .ok d
  | _, .root :: rest => makeAlong d [] rest
  | at_, .here :: rest => makeAlong d at_ rest
  | at_, .parent :: rest => makeAlong d at_.dropLast rest
  | at_, .name n :: rest =>
    let next := at_ ++ [n]
    match d.entry? next with
    | some .dir => makeAlong d next rest
    | some (.file _) => .error d
    | none => makeAlong (d.put next .dir) next rest

def makeDirectories (d : Disk) (p : Path) : Except Disk Disk := d.makeAlong d.start p.components

def write (d : Disk) (p : Path) (content : String) : Option Disk := do
  let place ← d.locate? p
  if d.isDirAt place || namesDirectory p then none
  else return d.put place (.file (.text content))

def addFile (d : Disk) (at_ : Place) (e : Entry) : Disk :=
  let parents := (List.range at_.length).map at_.take
  let d := parents.foldl (fun d p => if d.existsAt p then d else d.put p .dir) d
  d.put at_ e

end Disk

end CallAtlas
