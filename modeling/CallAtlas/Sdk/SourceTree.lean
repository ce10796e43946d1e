import CallAtlas.Files.Disk
import CallAtlas.Go.SourceFile
import CallAtlas.Notice
import CallAtlas.Sdk.Cache

namespace CallAtlas.Sdk

-- Access to source files: which files there are, their contents, and the names of the files directly
-- in a directory, in order. A file that is there need not be one that can be read.
structure SourceTree where
  isFile : Path → Bool
  read? : Path → Option Body
  list : Path → List String

namespace SourceTree

def nameIn? (dir : List Path.Component) (file : List Path.Component) : Option String :=
  if file.dropLast == dir then
    match file.getLast? with
    | some (.name n) => some n
    | _ => none
  else none

def ofFiles (files : List (Path × Body)) : SourceTree where
  isFile p := files.any fun f => f.1.components == p.components
  read? p := (files.find? fun f => f.1.components == p.components).map (·.2)
  list dir :=
    let names := files.filterMap fun f => nameIn? dir.components f.1.components
    names.mergeSort fun a b => decide (a ≤ b)

def ofDisk (d : Disk) : SourceTree where
  isFile := d.isFile
  read? := d.read?
  list := d.fileNames

end SourceTree

structure State where
  cache : Cache := {}
  reads : List Path := []
  deriving Repr

abbrev Resolving := StateT State Noted

namespace Resolving

def warn (text : String) : Resolving Unit := fun s => do
  Noted.warn text
  return ((), s)

-- Reads and parses a file; a failure is reported and gives nothing.
def parseFile (tree : SourceTree) (path : Path) : Resolving (Option Go.SourceFile) := do
  modify fun s => { s with reads := s.reads ++ [path] }
  match tree.read? path with
  | none =>
    warn s!"Skipping {path.text}: entity not found"
    return none
  | some body =>
    match Go.SourceFile.ofBody path body with
    | .ok file => return some file
    | .error e =>
      warn e.message
      return none

end Resolving

end CallAtlas.Sdk
