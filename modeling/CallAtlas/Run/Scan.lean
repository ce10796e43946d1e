import CallAtlas.Analysis
import CallAtlas.Discovery
import CallAtlas.Run.Inputs
import CallAtlas.Run.Publishing

namespace CallAtlas.Run.Scan

open CallAtlas.Text

structure Summary where
  documents : List Path
  skipped : List SkippedFile
  calls : Nat
  -- Calls whose client could not be traced.
  unresolved : Nat
  stats : Sdk.Stats
  deriving Repr

structure Page where
  file : Path
  calls : List Call
  target : Path
  document : Document

structure Plan where
  files : List Go.SourceFile
  skipped : List SkippedFile
  analyzer : Analyzer

def companionsOf (s : Settings) (name : String) : List String :=
  (s.companions.entries.filter fun e => e.2 == name).map (·.1)

def addCompanion (disk : Disk) (path : Path) (source name : String) : String :=
  match (disk.read? (path.withFileName name)).bind Body.text? with
  | some companion => Go.appendCompanion source companion
  | none => source

def readResource (disk : Disk) (s : Settings) (path : Path) : Except Failure Go.SourceFile :=
  match disk.read? path with
  | none => .error .io
  | some body =>
    match companionsOf s (path.fileName?.getD "") with
    | [] => Go.SourceFile.ofBody path body
    | names =>
      match body.text? with
      | none => .error (.source path .notText)
      | some source => Go.SourceFile.ofText path (names.foldl (addCompanion disk path) source)

def readResources (disk : Disk) (s : Settings) :
    List Path → Noted (List Go.SourceFile × List SkippedFile)
  | [] => return ([], [])
  | path :: rest => do
    match readResource disk s path with
    | .ok file =>
      let (files, skipped) ← readResources disk s rest
      return (file :: files, skipped)
    | .error e =>
      Noted.warn s!"Skipping {path.text}: {e.message}"
      let (files, skipped) ← readResources disk s rest
      return (files, ⟨path, .unparseable e.message⟩ :: skipped)

-- The files as they are once the directory of the documents is there. Packages are looked at then.
def opened (disk : Disk) (s : Settings) : Disk :=
  match disk.makeDirectories s.outputRoot with
  | .ok made => made
  | .error left => left

def analyzerOf (disk : Disk) (s : Settings) (inputs : Inputs) : Analyzer where
  vendor := ⟨.ofDisk (opened disk s), s.vendorRoot⟩
  index := inputs.index
  registry := inputs.registry
  rest := ⟨.rest, s.restPackages⟩
  generated := ⟨.generated, s.generatedPackages⟩

def resourceOf (path : Path) : String := Go.resourceName (path.fileStem?.getD "")

def documentOf (s : Settings) (registry : Catalog.Registry) (path : Path) (calls : List Call) :
    Document :=
  let resource := resourceOf path
  Document.build resource calls (s.isPendingUpgrade resource) ⟨s.provider, s.version, s.host⟩
    registry

-- Analyzes a resource file. One whose comments contradict each other is left out.
def page (a : Analyzer) (s : Settings) (file : Go.SourceFile) :
    Sdk.Resolving (Except SkippedFile Page) := do
  match ← a.resourceCalls file s.comments with
  | .ok calls =>
    return .ok
      { file := file.path
        calls
        target := s.documentPath (resourceOf file.path)
        document := documentOf s a.registry file.path calls }
  | .error conflict =>
    Sdk.Resolving.warn s!"Skipping {file.path.text}: {conflict.message}"
    return .error ⟨file.path, .conflictingComments conflict.message⟩

-- The selection of resource files by settings; patterns of an ignore file exclude too.
def selectionOf (c : Config) (schema : Schema) : Selection where
  filter := c.settings.filter
  exclude := c.settings.exclude ++ c.ignorePatterns
  skipDirs := c.settings.skipDirs
  deprecated := c.settings.deprecated
  codeMarkers := c.settings.codeMarkers
  schema

def discover (disk : Disk) (c : Config) (schema : Schema) : Except Failure Discovery :=
  let root := c.settings.sourceRoot
  match disk.canonical? root with
  | none => .error (.noFiles root)
  | some root => do
    let found ← Discovery.find disk root (selectionOf c schema)
    if found.resources.isEmpty then .error (.noFiles root) else .ok found

def plan (disk : Disk) (c : Config) : Attempt Plan := do
  let s := c.settings
  let inputs ← readInputs disk s
  let found ← discover disk c inputs.schema
  let (files, unreadable) ← readResources disk s found.resources
  return { files, skipped := found.skipped ++ unreadable, analyzer := analyzerOf disk s inputs }

def skipListName : String := "skip_files.txt"

def skipList (files : List SkippedFile) : String :=
  String.join (files.map fun f => s!"{f.path.text}: {f.reason.text}\n")

-- What has been written: the documents, the files left out on the way, and the state in which the
-- packages were left.
structure Written where
  pages : List Page := []
  skipped : List SkippedFile := []
  state : Sdk.State := {}

def writePage (a : Analyzer) (s : Settings) (done : Written) (file : Go.SourceFile) :
    Publishing Written := do
  let (result, state) ← ((page a s file).run done.state : Noted _)
  match result with
  | .ok p =>
    Publishing.write p.target (p.document.render s.format)
    return { done with pages := done.pages ++ [p], state }
  | .error f => return { done with skipped := done.skipped ++ [f], state }

def summaryOf (w : Written) (skipped : List SkippedFile) : Summary where
  documents := w.pages.map Page.target
  skipped
  calls := (w.pages.flatMap Page.calls).length
  unresolved := (w.pages.flatMap Page.calls).countP (·.service.isUnknown)
  stats := w.state.cache.stats

-- Writes the documents in order, and then the list of files that were left out.
def publish (s : Settings) (p : Plan) : Publishing Summary := do
  Publishing.makeDirectories s.outputRoot
  let w ← p.files.foldlM (writePage p.analyzer s) {}
  let skipped := SkippedFile.sort (p.skipped ++ w.skipped)
  Publishing.write (s.outputRoot.join skipListName) (skipList skipped)
  return summaryOf w skipped

-- All that a scan cannot do without is read before the first file is written.
def run (c : Config) : Publishing Summary := do
  let p ← Publishing.reading fun disk => plan disk c
  publish c.settings p

end CallAtlas.Run.Scan
