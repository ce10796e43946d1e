import CallAtlas.Config.Resolved
import CallAtlas.Text.Quoted

namespace CallAtlas

open CallAtlas.Text

namespace Config

-- A list of texts; of a long one only the beginning and the length.
def listText (items : List String) : String :=
  if items.length > 4 then
    let first := join ", " (items.take 3)
    s!"[{first}, ... {items.length} entries]"
  else quotedList items

def truthText (b : Bool) : String := if b then "true" else "false"

def valueText (c : Config) (setting : Setting) : String :=
  let s := c.settings
  match setting with
  | .provider => s.provider
  | .version => s.version
  | .outputDir => s.outputDir.text
  | .format => s.format.text
  | .quiet => truthText s.quiet
  | .host => s.host
  | .basePath => s.basePath.text
  | .sourceDir => s.sourceDir.text
  | .configFile => s.configFile.text
  | .hcConfigFile => s.hcConfigFile.text
  | .catalogFile => s.catalogFile.text
  | .vendorDir => s.vendorDir.text
  | .schema => (s.schema.map Path.text).getD "(none)"
  | .restPackages => s.restPackages
  | .generatedPackages => s.generatedPackages
  | .filter => s.filter.getD "(all)"
  | .exclude => listText s.exclude
  | .skipDirs => listText s.skipDirs
  | .deprecated => listText s.deprecated
  | .codeMarkers => listText s.codeMarkers
  | .pendingUpgrade => listText s.pendingUpgrade
  | .comments => truthText s.comments
  | .companions => s!"{s.companions.size} entries"
  | .ignorePatterns => listText c.ignorePatterns

def entryLine (c : Config) (entry : String × Source) : String :=
  let value := ((Setting.ofKey? entry.1).map c.valueText).getD "(unknown)"
  s!"  {entry.1}: {value} <- {entry.2.text}"

def loadedLines (c : Config) : List String :=
  if c.loadedFiles.isEmpty then ["Loaded config files: (none)"]
  else
    "Loaded config files:" ::
      (c.loadedFiles.zipIdx 1).map fun (path, n) => s!"  {n}. {path.text}"

def report (c : Config) (section? : Option String) : String :=
  let entries :=
    match section? with
    | some name => c.provenance.sectionEntries (trimEndText "." name)
    | none => c.provenance.entries
  let body :=
    if entries.isEmpty then
      ["Unknown section: " ++ section?.getD "",
       "Available sections: " ++ join ", " c.provenance.sections]
    else "Resolved settings:" :: entries.map c.entryLine
  String.join ((c.loadedLines ++ "" :: body).map (· ++ "\n"))

end Config

end CallAtlas
