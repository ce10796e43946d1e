import CallAtlas.Files.Disk
import CallAtlas.Notice

namespace CallAtlas

open CallAtlas.Text

structure IgnoreFile where
  path : Option Path := none
  patterns : List String := []
  deriving Repr, DecidableEq

namespace IgnoreFile

def fileName : String := ".apiscanignore"

-- The glob of a line, if it is neither blank nor a comment. A line that ends in a separator means
-- all that is below the directory.
def pattern? (line : String) : Option String :=
  let line := trim line
  if line == "" || startsWith line "#" then none
  else
    match stripEnd? line "/" with
    | some dir => some (dir ++ "/**")
    | none => some line

def patternsOf (content : String) : List String := (lines content).filterMap pattern?

-- Finds the nearest ignore file. One that cannot be read counts as absent.
def find (disk : Disk) (start : Path) : Noted IgnoreFile :=
  match (start.ancestors.map (·.join fileName)).find? disk.isFile with
  | none => return {}
  | some path =>
    match (disk.read? path).bind Body.text? with
    | some content => return { path := some path, patterns := patternsOf content }
    | none => do
      Noted.warn s!"Cannot read {path.text}: stream did not contain valid UTF-8"
      return {}

end IgnoreFile

end CallAtlas
