import CallAtlas.Discovery
import CallAtlas.Document.Generated
import CallAtlas.Run.Inputs
import CallAtlas.Run.Publishing

namespace CallAtlas.Run.Conversion

open CallAtlas.Text

structure Summary where
  documents : List Path := []
  -- How many descriptions were not exported or could not be read.
  skipped : Nat := 0
  deriving Repr, DecidableEq

def readDescription (disk : Disk) (path : Path) : Except Failure Description :=
  match (disk.read? path).bind Body.text? with
  | none => .error .io
  | some content => Description.ofYaml content

def documentOf (s : Settings) (schema : Schema) (path : Path) (resource : String) (disk : Disk) :
    Noted (Option Document) := do
  if !schema.isExported resource then return none
  match readDescription disk path with
  | .ok d => return some (← Document.ofDescription resource d s.provider s.version)
  | .error e =>
    Noted.warn s!"Skipping {path.text}: {e.message}"
    return none

-- The description is read after the documents before it have been written.
def convert (s : Settings) (schema : Schema) (done : Summary) (path : Path) :
    Publishing Summary := do
  match path.fileStem? with
  | none => return done
  | some resource =>
    let document? ← Publishing.reading fun disk => documentOf s schema path resource disk
    match document? with
    | none => return { done with skipped := done.skipped + 1 }
    | some document =>
      let target := s.documentPath resource
      Publishing.write target (document.render s.format)
      return { done with documents := done.documents ++ [target] }

def discover (disk : Disk) (inputDir : Path) : Except Failure (List Path) :=
  match Discovery.descriptions disk inputDir with
  | [] => .error (.noFiles inputDir)
  | paths => .ok paths

def prepare (disk : Disk) (c : Config) (inputDir : Path) : Attempt (Schema × List Path) := do
  let schema ← readSchema disk c.settings
  let paths ← discover disk inputDir
  return (schema, paths)

def run (c : Config) (inputDir : Path) : Publishing Summary := do
  let (schema, paths) ← Publishing.reading fun disk => prepare disk c inputDir
  Publishing.makeDirectories c.settings.outputRoot
  paths.foldlM (convert c.settings schema) {}

end CallAtlas.Run.Conversion
