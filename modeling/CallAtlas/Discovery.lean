import CallAtlas.Failure
import CallAtlas.Files.IgnoreRules
import CallAtlas.Schema

namespace CallAtlas

open CallAtlas.Text

inductive SkipReason where
  | skippedDir (name : String)
  | deprecated (entry : String)
  | excluded
  | notExported
  | generatedCode (marker : String)
  | unparseable (message : String)
  | conflictingComments (message : String)
  deriving Repr, DecidableEq

def SkipReason.text : SkipReason → String
  | .skippedDir name => s!"under skipped directory {name}"
  | .deprecated entry => s!"deprecated ({entry})"
  | .excluded => "excluded by pattern"
  | .notExported => "not exported by the provider schema"
  | .generatedCode marker => s!"generated code ({marker})"
  | .unparseable message => s!"unparseable: {message}"
  | .conflictingComments message => s!"conflicting API annotations: {message}"

structure SkippedFile where
  path : Path
  reason : SkipReason
  deriving Repr, DecidableEq

structure Selection where
  filter : Option String := none
  exclude : List String := []
  skipDirs : List String := []
  deprecated : List String := []
  codeMarkers : List String := []
  schema : Schema

structure Discovery where
  resources : List Path := []
  skipped : List SkippedFile := []
  deriving Repr

def Path.sort (paths : List Path) : List Path := paths.mergeSort fun p q => !q.before p

def SkippedFile.sort (files : List SkippedFile) : List SkippedFile :=
  files.mergeSort fun a b => !b.path.before a.path

def isResourceFile (name : String) : Bool :=
  endsWith name ".go" && !endsWith name "_test.go" &&
    (startsWith name "resource_" || startsWith name "data_source_")

-- A file that is met on the way: its path, the same seen from the starting point, its name and its
-- contents.
structure Candidate where
  path : Path
  relative : Path
  name : String
  body : Body

namespace Candidate

-- How many lines at the head of a file may tell that a program wrote it.
def headLines : Nat := 20

def skippedDir? (f : Candidate) (dirs : List String) : Option String :=
  let holders := f.relative.components.dropLast
  holders.findSome? fun
    | .name n => if dirs.contains n then some n else none
    | _ => none

def marker? (f : Candidate) (markers : List String) : Option String :=
  (f.body.lines.take headLines).findSome? fun line => markers.find? (contains line)

-- A pattern may mean the path seen from the starting point, the whole path or the name.
def isExcluded (f : Candidate) (globs : List Glob) : Bool :=
  globs.any fun g => g.accepts f.relative.text || g.accepts f.path.text || g.accepts f.name

def stem (f : Candidate) : String := trimEndText ".go" f.name

-- Why a resource file is left out; the first rule counts.
def skipReason? (f : Candidate) (s : Selection) (globs : List Glob) : Option SkipReason :=
  match f.skippedDir? s.skipDirs with
  | some dir => some (.skippedDir dir)
  | none =>
    match s.deprecated.find? (contains f.name) with
    | some entry => some (.deprecated entry)
    | none =>
      if f.isExcluded globs then some .excluded
      else if !s.schema.isExported f.stem then some .notExported
      else (f.marker? s.codeMarkers).map .generatedCode

end Candidate

namespace Discovery

def candidates (disk : Disk) (root : Path) (filter : Option String) : List Candidate :=
  (disk.walk root).filterMap fun (path, at_) => do
    let name ← path.fileName?
    let body ← disk.bodyAt? at_
    let relative := (path.relativeTo? root).getD path
    let wanted := (filter.map (contains relative.text)).getD true
    if isResourceFile name && wanted then some { path, relative, name, body } else none

-- Patterns of exclusions go across separators, and their brackets are closed.
def excludeRules : GlobRules := { stopsAtSeparator := false, allowsOpenBracket := false }

def globsOf (patterns : List String) : Except Failure (List Glob) :=
  match patterns.mapM (Glob.read? excludeRules) with
  | some globs => .ok globs
  | none => .error .glob

def find (disk : Disk) (root : Path) (s : Selection) : Except Failure Discovery := do
  let globs ← globsOf s.exclude
  let found := candidates disk root s.filter
  let skipped := found.filterMap fun f => (f.skipReason? s globs).map (SkippedFile.mk f.path)
  let resources := found.filter fun f => (f.skipReason? s globs).isNone
  return {
    resources := Path.sort (resources.map Candidate.path)
    skipped := SkippedFile.sort skipped }

def descriptions (disk : Disk) (root : Path) : List Path :=
  Path.sort ((disk.walk root).filterMap fun (path, _) =>
    if path.extension? == some "yaml" then some path else none)

end Discovery

end CallAtlas
