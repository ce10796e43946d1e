import CallAtlas.Config.Provenance
import CallAtlas.Config.Settings

namespace CallAtlas

inductive Setting where
  | provider
  | version
  | outputDir
  | format
  | quiet
  | host
  | basePath
  | sourceDir
  | configFile
  | hcConfigFile
  | catalogFile
  | vendorDir
  | schema
  | restPackages
  | generatedPackages
  | filter
  | exclude
  | skipDirs
  | deprecated
  | codeMarkers
  | pendingUpgrade
  | comments
  | companions
  | ignorePatterns
  deriving Repr, DecidableEq

namespace Setting

def key : Setting → String
  | .provider => "defaults.provider"
  | .version => "defaults.version"
  | .outputDir => "defaults.output_dir"
  | .format => "defaults.format"
  | .quiet => "defaults.quiet"
  | .host => "defaults.host"
  | .basePath => "paths.base_path"
  | .sourceDir => "paths.source_dir"
  | .configFile => "paths.config_file"
  | .hcConfigFile => "paths.hc_config_file"
  | .catalogFile => "paths.catalog_file"
  | .vendorDir => "paths.vendor_dir"
  | .schema => "paths.schema"
  | .restPackages => "sdk.rest_prefix"
  | .generatedPackages => "sdk.generated_prefix"
  | .filter => "targeting.filter"
  | .exclude => "targeting.exclude"
  | .skipDirs => "targeting.skip_dirs"
  | .deprecated => "targeting.deprecated"
  | .codeMarkers => "targeting.generated_markers"
  | .pendingUpgrade => "targeting.pending_upgrade"
  | .comments => "targeting.annotations"
  | .companions => "companions"
  | .ignorePatterns => "targeting.ignore_patterns"

def always : List Setting :=
  [.provider, .version, .outputDir, .format, .quiet, .host, .basePath, .sourceDir, .configFile,
   .hcConfigFile, .catalogFile, .vendorDir, .schema, .restPackages, .generatedPackages, .filter,
   .exclude, .skipDirs, .deprecated, .codeMarkers, .pendingUpgrade, .comments, .companions]

def ofKey? (key : String) : Option Setting :=
  (always ++ [Setting.ignorePatterns]).find? fun s => s.key == key

def flag? : Setting → Option String
  | .basePath => some "--path"
  | .outputDir => some "--output-dir"
  | .provider => some "--provider"
  | .version => some "--version"
  | .schema => some "--schema"
  | .filter => some "--filter"
  | .exclude => some "--exclude"
  | .format => some "--format"
  | .quiet => some "--quiet"
  | _ => none

end Setting

-- Values for some of the settings. Companions add to those that are there.
structure Layer where
  provider : Option String := none
  version : Option String := none
  outputDir : Option Path := none
  format : Option DocumentFormat := none
  quiet : Option Bool := none
  host : Option String := none
  basePath : Option Path := none
  sourceDir : Option Path := none
  configFile : Option Path := none
  hcConfigFile : Option Path := none
  catalogFile : Option Path := none
  vendorDir : Option Path := none
  schema : Option Path := none
  restPackages : Option String := none
  generatedPackages : Option String := none
  filter : Option String := none
  exclude : Option (List String) := none
  skipDirs : Option (List String) := none
  deprecated : Option (List String) := none
  codeMarkers : Option (List String) := none
  pendingUpgrade : Option (List String) := none
  comments : Option Bool := none
  companions : SortedMap String String := {}

-- What a command line may set.
structure Flags where
  basePath : Option Path := none
  outputDir : Option Path := none
  provider : Option String := none
  version : Option String := none
  schema : Option Path := none
  filter : Option String := none
  exclude : List String := []
  format : Option DocumentFormat := none
  quiet : Bool := false

-- The layer of a command line. No exclusions set nothing, and quiet is set only if it is asked for.
def Flags.layer (f : Flags) : Layer where
  basePath := f.basePath
  outputDir := f.outputDir
  provider := f.provider
  version := f.version
  schema := f.schema
  filter := f.filter
  exclude := (some f.exclude).filter (!·.isEmpty)
  format := f.format
  quiet := (some f.quiet).filter (·)

def Layer.sets (l : Layer) : Setting → Bool
  | .provider => l.provider.isSome
  | .version => l.version.isSome
  | .outputDir => l.outputDir.isSome
  | .format => l.format.isSome
  | .quiet => l.quiet.isSome
  | .host => l.host.isSome
  | .basePath => l.basePath.isSome
  | .sourceDir => l.sourceDir.isSome
  | .configFile => l.configFile.isSome
  | .hcConfigFile => l.hcConfigFile.isSome
  | .catalogFile => l.catalogFile.isSome
  | .vendorDir => l.vendorDir.isSome
  | .schema => l.schema.isSome
  | .restPackages => l.restPackages.isSome
  | .generatedPackages => l.generatedPackages.isSome
  | .filter => l.filter.isSome
  | .exclude => l.exclude.isSome
  | .skipDirs => l.skipDirs.isSome
  | .deprecated => l.deprecated.isSome
  | .codeMarkers => l.codeMarkers.isSome
  | .pendingUpgrade => l.pendingUpgrade.isSome
  | .comments => l.comments.isSome
  | .companions => !l.companions.isEmpty
  | .ignorePatterns => false

def Settings.override (s : Settings) (l : Layer) : Settings where
  provider := l.provider.getD s.provider
  version := l.version.getD s.version
  outputDir := l.outputDir.getD s.outputDir
  format := l.format.getD s.format
  quiet := l.quiet.getD s.quiet
  host := l.host.getD s.host
  basePath := l.basePath.getD s.basePath
  sourceDir := l.sourceDir.getD s.sourceDir
  configFile := l.configFile.getD s.configFile
  hcConfigFile := l.hcConfigFile.getD s.hcConfigFile
  catalogFile := l.catalogFile.getD s.catalogFile
  vendorDir := l.vendorDir.getD s.vendorDir
  schema := l.schema.or s.schema
  restPackages := l.restPackages.getD s.restPackages
  generatedPackages := l.generatedPackages.getD s.generatedPackages
  filter := l.filter.or s.filter
  exclude := l.exclude.getD s.exclude
  skipDirs := l.skipDirs.getD s.skipDirs
  deprecated := l.deprecated.getD s.deprecated
  codeMarkers := l.codeMarkers.getD s.codeMarkers
  pendingUpgrade := l.pendingUpgrade.getD s.pendingUpgrade
  comments := l.comments.getD s.comments
  companions := l.companions.entries.foldl (fun m e => m.insert e.1 e.2) s.companions

namespace Provenance

def mark (p : Provenance) (settings : List Setting) (source? : Setting → Option Source) :
    Provenance :=
  settings.foldl
    (fun p s =>
      match source? s with
      | some source => p.set s.key source
      | none => p)
    p

def defaults : Provenance := ({} : Provenance).mark Setting.always fun _ => some .default

def markLayer (p : Provenance) (l : Layer) (source? : Setting → Option Source) : Provenance :=
  p.mark (Setting.always.filter l.sets) source?

end Provenance

end CallAtlas
