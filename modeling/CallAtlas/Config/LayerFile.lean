import CallAtlas.Config.Layer
import CallAtlas.Notice
import CallAtlas.Toml.Reader

namespace CallAtlas

-- A settings file as it is written: its format is a name that may be unknown, its exclusions may be
-- an empty list, and its base path is meant relative to the file.
structure LayerFile where
  formatName : Option String := none
  layer : Layer := {}

namespace LayerFile

def fieldsOf (keys : List String) : List Field := keys.map fun key => ⟨[key], false⟩

def text? : Option Toml.Value → Option (Option String) := Readable.optional Readable.text?

def path? (v : Option Toml.Value) : Option (Option Path) := (text? v).map (·.map Path.mk)

def truth? : Option Toml.Value → Option (Option Bool) := Readable.optional Readable.truth?

def texts? : Option Toml.Value → Option (Option (List String)) :=
  Readable.optional (Readable.list? Readable.text?)

def readDefaults? (f : LayerFile) (v : Toml.Value) : Option LayerFile := do
  let fields := fieldsOf ["provider", "version", "output_dir", "format", "quiet", "host"]
  match ← Readable.record? fields v with
  | [provider, version, outputDir, format, quiet, host] =>
    let provider ← text? provider
    let version ← text? version
    let outputDir ← path? outputDir
    let formatName ← text? format
    let quiet ← truth? quiet
    let host ← text? host
    return { f with
      formatName
      layer := { f.layer with provider, version, outputDir, quiet, host } }
  | _ => none

def readPaths? (f : LayerFile) (v : Toml.Value) : Option LayerFile := do
  let fields := fieldsOf
    ["base_path", "source_dir", "config_file", "hc_config_file", "catalog_file", "vendor_dir",
     "schema"]
  match ← Readable.record? fields v with
  | [basePath, sourceDir, configFile, hcConfigFile, catalogFile, vendorDir, schema] =>
    let basePath ← path? basePath
    let sourceDir ← path? sourceDir
    let configFile ← path? configFile
    let hcConfigFile ← path? hcConfigFile
    let catalogFile ← path? catalogFile
    let vendorDir ← path? vendorDir
    let schema ← path? schema
    return { f with
      layer := { f.layer with
        basePath, sourceDir, configFile, hcConfigFile, catalogFile, vendorDir, schema } }
  | _ => none

def readSdk? (f : LayerFile) (v : Toml.Value) : Option LayerFile := do
  match ← Readable.record? (fieldsOf ["rest_prefix", "generated_prefix"]) v with
  | [rest, generated] =>
    let restPackages ← text? rest
    let generatedPackages ← text? generated
    return { f with layer := { f.layer with restPackages, generatedPackages } }
  | _ => none

def readTargeting? (f : LayerFile) (v : Toml.Value) : Option LayerFile := do
  let fields :=
    fieldsOf ["filter"] ++ [⟨["exclude"], true⟩] ++
      fieldsOf
        ["skip_dirs", "deprecated", "generated_markers", "pending_upgrade", "annotations"]
  match ← Readable.record? fields v with
  | [filter, exclude, skipDirs, deprecated, codeMarkers, pendingUpgrade, comments] =>
    let filter ← text? filter
    let exclude ← texts? exclude
    let skipDirs ← texts? skipDirs
    let deprecated ← texts? deprecated
    let codeMarkers ← texts? codeMarkers
    let pendingUpgrade ← texts? pendingUpgrade
    let comments ← truth? comments
    return { f with
      layer := { f.layer with
        filter, exclude, skipDirs, deprecated, codeMarkers, pendingUpgrade, comments } }
  | _ => none

def readCompanions? (f : LayerFile) (v : Toml.Value) : Option LayerFile := do
  let companions ← Readable.map? Readable.text? v
  return { f with layer := { f.layer with companions } }

-- A section that is not known is a fault; a key that is not known is passed over.
def readSection? (f : LayerFile) (entry : String × Toml.Value) : Option LayerFile :=
  match entry.1 with
  | "defaults" => f.readDefaults? entry.2
  | "paths" => f.readPaths? entry.2
  | "sdk" => f.readSdk? entry.2
  | "targeting" => f.readTargeting? entry.2
  | "companions" => f.readCompanions? entry.2
  | _ => none

def read? (content : String) : Option LayerFile := do
  let document ← Toml.read? content
  let sections ← Readable.entries? document
  sections.foldlM readSection? {}

def formatOf? (name : String) : Option DocumentFormat :=
  [DocumentFormat.yaml, .json].find? fun f => f.text == name.toLower

-- The layer that a file makes up. A format that is not known sets nothing, nor does an empty list of
-- exclusions, and a base path is taken from the given directory if there is one.
def settle (f : LayerFile) (source : Source) (dir : Option Path) : Noted Layer := do
  let format ←
    match f.formatName with
    | none => pure none
    | some name =>
      match formatOf? name with
      | some format => pure (some format)
      | none =>
        Noted.warn s!"Ignoring unknown format '{name}' from {source.text}"
        pure none
  let basePath :=
    match dir with
    | some dir => f.layer.basePath.map fun p => dir.join p.text
    | none => f.layer.basePath
  return { f.layer with format, basePath, exclude := f.layer.exclude.filter (!·.isEmpty) }

end LayerFile

end CallAtlas
