import CallAtlas.Config.IgnoreFile
import CallAtlas.Config.LayerFile
import CallAtlas.Failure

namespace CallAtlas

structure Config where
  settings : Settings := {}
  ignorePatterns : List String := []
  provenance : Provenance := {}
  loadedFiles : List Path := []

namespace Config

def projectFileName : String := ".apiscan.toml"

def userFile (home : Path) : Path := (home.join "apiscan").join "config.toml"

def projectFile? (disk : Disk) (start : Path) : Option Path :=
  (start.ancestors.map (·.join projectFileName)).find? disk.contains

def readFile (disk : Disk) (path : Path) (layer : String) : Except Failure LayerFile :=
  match (disk.read? path).bind Body.text? with
  | none => .error (.setting (.unreadableLayer layer path))
  | some content =>
    match LayerFile.read? content with
    | none => .error (.setting (.invalidLayer layer))
    | some file => .ok file

def add (c : Config) (l : Layer) (source? : Setting → Option Source) : Config :=
  { c with
    settings := c.settings.override l
    provenance := c.provenance.markLayer l source? }

def addFile (disk : Disk) (path : Path) (layer : String) (source : Source) (dir : Option Path)
    (c : Config) : Attempt Config := do
  let file ← readFile disk path layer
  let l ← file.settle source dir
  return { c.add l fun _ => some source with loadedFiles := c.loadedFiles ++ [path] }

def initial (workingDir : Path) : Config where
  settings := { basePath := workingDir }
  provenance := .defaults

def addUserFile (disk : Disk) (home : Option Path) (c : Config) : Attempt Config :=
  match home.map userFile with
  | none => return c
  | some path =>
    if disk.contains path then c.addFile disk path "user" (.userFile path) none else return c

def addProjectFile (disk : Disk) (workingDir : Path) (c : Config) : Attempt Config :=
  match projectFile? disk workingDir with
  | none => return c
  | some path => c.addFile disk path "project" (.projectFile path) path.parent?

def addFlags (flags : Layer) (c : Config) : Config :=
  c.add flags fun s => s.flag?.map .flag

def addIgnoreFile (f : IgnoreFile) (c : Config) : Config :=
  match f.path with
  | none => c
  | some path =>
    { c with
      ignorePatterns := f.patterns
      provenance := c.provenance.set Setting.ignorePatterns.key (.ignoreFile path) }

-- Each layer is put above the ones before it; the ignore file gives its patterns only.
def resolve (disk : Disk) (home : Option Path) (workingDir : Path) (flags : Layer) :
    Attempt Config := do
  let c ← (initial workingDir).addUserFile disk home
  let c ← c.addProjectFile disk workingDir
  let ignoreFile ← IgnoreFile.find disk workingDir
  return (c.addFlags flags).addIgnoreFile ignoreFile

end Config

end CallAtlas
