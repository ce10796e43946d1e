import CallAtlas.Notice
import CallAtlas.Path
import CallAtlas.Text.Utf8

namespace CallAtlas

inductive SourceFault where
  | undecodable (e : Text.Utf8.DecodeError)
  | notText
  | syntaxNear (line : Nat)
  deriving Repr, DecidableEq

def SourceFault.message : SourceFault → String
  | .undecodable e => s!"not valid UTF-8: {e.message}"
  | .notText => "not valid UTF-8"
  | .syntaxNear line => s!"syntax error near line {line}"

inductive RequiredInput where
  | providerConfig
  | providerSchema
  | serviceCatalog
  deriving Repr, DecidableEq

def RequiredInput.text : RequiredInput → String
  | .providerConfig => "provider config file"
  | .providerSchema => "provider schema"
  | .serviceCatalog => "service catalog"

inductive SettingFault where
  | catalogFormat (extension : String) (path : Path)
  | catalogVariable (path : Path)
  | unreadableLayer (layer : String) (path : Path)
  | invalidLayer (layer : String)
  | invalidPath
  | notAPackage (dir : Path)
  deriving Repr, DecidableEq

def SettingFault.message : SettingFault → String
  | .catalogFormat ext path => s!"unsupported service catalog format '{ext}': {path.text}"
  | .catalogVariable path => s!"allServiceCatalog not found in {path.text}"
  | .unreadableLayer layer path => s!"Could not read {layer} config: {path.text}"
  | .invalidLayer layer => s!"Invalid {layer} config"
  | .invalidPath => "Invalid path"
  | .notAPackage dir => s!"not an SDK package directory: {dir.text}"

inductive Failure where
  | noFiles (path : Path)
  | source (file : Path) (fault : SourceFault)
  | missing (input : RequiredInput) (path : Path)
  | setting (fault : SettingFault)
  | io
  | json
  | yaml
  | glob
  deriving Repr, DecidableEq

def Failure.message : Failure → String
  | .noFiles path => s!"No resource files found in {path.text}"
  | .source file fault => s!"Parse error in {file.text}: {fault.message}"
  | .missing input path => s!"Required {input.text} not readable: {path.text}"
  | .setting fault => s!"Configuration error: {fault.message}"
  | .io => "file not accessible"
  | .json => "malformed JSON"
  | .yaml => "malformed YAML"
  | .glob => "malformed glob"

abbrev Attempt := ExceptT Failure Noted

end CallAtlas
