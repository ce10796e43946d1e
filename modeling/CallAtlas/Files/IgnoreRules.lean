import CallAtlas.Files.Disk
import CallAtlas.Files.Glob

namespace CallAtlas

open CallAtlas.Text

structure IgnoreRule where
  glob : Glob
  keeps : Bool
  directoriesOnly : Bool
  deriving Repr

inductive Verdict where
  | ignored
  | kept
  deriving Repr, DecidableEq

namespace IgnoreRule

def globRules : GlobRules := ⟨true, true⟩

-- Drops the blanks at the end of a line, unless an escaped space comes last.
def trimLine (line : String) : String := if endsWith line "\\ " then line else trimEnd line

-- The pattern of a rule as a glob: one without separators matches at every depth, and one that ends
-- in two stars matches what is inside only.
def globText (anchored : Bool) (body : String) : String :=
  let free := !anchored && !containsChar body '/' && body != "**"
  let text := if free then "**/" ++ body else body
  if endsWith text "/**" then text ++ "/*" else text

def read? (line : String) : Option IgnoreRule := do
  let line := trimLine line
  if line == "" || startsWith line "#" then none
  else
    let escaped := startsWith line "\\!" || startsWith line "\\#"
    let keeps := !escaped && startsWith line "!"
    let body := if escaped || keeps then String.ofList (line.toList.drop 1) else line
    let anchored := startsWith body "/"
    let body := if anchored && !escaped then String.ofList (body.toList.drop 1) else body
    let directoriesOnly := endsWith body "/"
    let body :=
      match stripEnd? body "/" with
      | some cut => (stripEnd? cut "\\").getD cut
      | none => body
    let glob ← Glob.read? globRules (globText anchored body)
    return { glob, keeps, directoriesOnly }

-- The rules of an ignore file. A byte order mark before the first line does not count.
def ofBody (b : Body) : List IgnoreRule :=
  match b.lines with
  | [] => []
  | first :: rest => (trimMark first :: rest).filterMap read?
where
  trimMark (s : String) : String := String.ofList (s.toList.dropWhile (·.toNat == 0xFEFF))

-- Of the rules that match, the last one decides.
def verdict? (rules : List IgnoreRule) (relative : String) (isDir : Bool) : Option Verdict :=
  (rules.reverse.find? fun r => (!r.directoriesOnly || isDir) && r.glob.accepts relative).map
    fun r => if r.keeps then .kept else .ignored

end IgnoreRule

namespace Disk

def fileVerdict? (d : Disk) (dir : Place) (file : List String) (target : Place) (isDir : Bool) :
    Option Verdict :=
  match d.bodyAt? (dir ++ file) with
  | some body =>
    IgnoreRule.verdict? (IgnoreRule.ofBody body) (join "/" (target.drop dir.length)) isDir
  | none => none

def holders (at_ : Place) : List Place :=
  ((List.range at_.length).map at_.take).reverse

def hasRepository (d : Disk) (dir : Place) : Bool := d.existsAt (dir ++ [".git"])

-- The holders of a place up to the root of the repository it belongs to; none without a repository.
def repositoryHolders (d : Disk) (at_ : Place) : List Place :=
  let dirs := holders at_
  if dirs.any d.hasRepository then
    let inside := dirs.takeWhile (!d.hasRepository ·)
    inside ++ (dirs.drop inside.length).take 1
  else []

-- The nearest directory whose file has a rule decides. Files of version control count inside a
-- repository only.
def isIgnored (d : Disk) (at_ : Place) (isDir : Bool) : Bool :=
  let first (dirs : List Place) (file : List String) : Option Verdict :=
    dirs.findSome? fun dir => d.fileVerdict? dir file at_ isDir
  let tracked := d.repositoryHolders at_
  let verdict :=
    (first (holders at_) [".ignore"]).or <|
      (first tracked [".gitignore"]).or (first tracked [".git", "info", "exclude"])
  verdict == some .ignored

def spelled (root : Path) (below : List String) : Path := below.foldl Path.join root

-- A file that is met below a starting point, under its path from there. A directory that is left out
-- hides all that is in it.
def visit? (d : Disk) (root : Path) (place : Place) : Place × Entry → Option (Path × Place)
  | (_, .dir) => none
  | (at_, .file _) =>
    if place.isPrefixOf at_ then
      let steps := (List.range (at_.length - place.length)).map fun i =>
        at_.take (place.length + i + 1)
      if steps.any fun s => d.isIgnored s (s != at_) then none
      else some (spelled root (at_.drop place.length), at_)
    else none

-- The files at or below a path that no ignore file leaves out. The starting point itself is never
-- left out.
def walk (d : Disk) (root : Path) : List (Path × Place) :=
  match d.at? root, d.locate? root with
  | some (.file _), some place => [(root, place)]
  | some .dir, some place => d.entries.filterMap (d.visit? root place)
  | _, _ => []

end Disk

end CallAtlas
