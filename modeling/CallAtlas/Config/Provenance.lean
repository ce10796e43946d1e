import CallAtlas.Data.SortedMap
import CallAtlas.Path
import CallAtlas.Text.Basic

namespace CallAtlas

open CallAtlas.Text

inductive Source where
  | default
  | userFile (path : Path)
  | projectFile (path : Path)
  | ignoreFile (path : Path)
  | flag (name : String)
  deriving Repr, DecidableEq

def Source.text : Source → String
  | .default => "default"
  | .userFile path => s!"user config ({path.text})"
  | .projectFile path => s!"project config ({path.text})"
  | .ignoreFile path => s!"ignore file ({path.text})"
  | .flag name => s!"CLI flag ({name})"

structure Provenance where
  sources : SortedMap String Source := {}
  deriving Repr

namespace Provenance

def set (p : Provenance) (key : String) (source : Source) : Provenance :=
  ⟨p.sources.insert key source⟩

def entries (p : Provenance) : List (String × Source) := p.sources.entries

-- A key is `section.name`; one without a dot is a section of its own.
def sectionOf (key : String) : String :=
  match splitOnce? '.' key with
  | some (before, _) => before
  | none => key

def sectionEntries (p : Provenance) (name : String) : List (String × Source) :=
  p.entries.filter fun e => sectionOf e.1 == name

def sections (p : Provenance) : List String :=
  (SortedMap.ofList (p.entries.map fun e => (sectionOf e.1, ()))).keys

end Provenance

end CallAtlas
