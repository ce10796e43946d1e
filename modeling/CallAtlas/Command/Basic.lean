import CallAtlas.Command.Words
import CallAtlas.Config.Report
import CallAtlas.Run.Conversion
import CallAtlas.Run.Scan
import CallAtlas.Sdk.Report

namespace CallAtlas

inductive Command where
  | scan (path : Option Path) (flags : Flags)
  | convert (inputDir : Path) (path : Option Path) (flags : Flags)
  | showPackage (dir : Path) (format : DocumentFormat)
  | showConfig (section? : Option String) (path : Option Path)

namespace Command

def formats : ValueKind := .oneOf [DocumentFormat.yaml.text, DocumentFormat.json.text]

def documentOptions : List (String × OptionKind) :=
  [("path", .single .nonempty), ("output-dir", .single .nonempty), ("provider", .single .any),
   ("version", .single .any), ("schema", .single .nonempty), ("format", .single formats),
   ("quiet", .flag)]

def scanParameters : Parameters where
  options := documentOptions ++ [("filter", .single .any), ("exclude", .list .any)]

def convertParameters : Parameters where
  options := documentOptions
  positionals := [⟨"input-dir", .nonempty, true⟩]

def packageParameters : Parameters where
  options := [("format", .single formats)]
  positionals := [⟨"dir", .nonempty, true⟩]

def configParameters : Parameters where
  options := [("path", .single .nonempty)]
  positionals := [⟨"section", .any, false⟩]

def menu : Menu :=
  .branch true
    [("scan", .leaf scanParameters), ("autogen", .leaf convertParameters),
     ("sdk", .leaf packageParameters),
     ("config", .branch false [("show", .leaf configParameters)])]

def path? (given : Given) (name : String) : Option Path := (given.lookup name).map Path.mk

def format? (given : Given) : Option DocumentFormat :=
  (given.lookup "format").map fun name =>
    if name == DocumentFormat.json.text then .json else .yaml

def flagsOf (given : Given) : Flags where
  outputDir := path? given "output-dir"
  provider := given.lookup "provider"
  version := given.lookup "version"
  schema := path? given "schema"
  filter := given.lookup "filter"
  exclude := (given.filter (·.1 == "exclude")).map (·.2)
  format := format? given
  quiet := (given.lookup "quiet").isSome

def read (words : List String) : Except Usage Command := do
  let (names, given) ← Menu.read words menu
  match names with
  | ["scan"] => return .scan (path? given "path") (flagsOf given)
  | ["autogen"] =>
    let dir ← (path? given "input-dir").elim (.error .missingValue) .ok
    return .convert dir (path? given "path") (flagsOf given)
  | ["sdk"] =>
    let dir ← (path? given "dir").elim (.error .missingValue) .ok
    return .showPackage dir ((format? given).getD .yaml)
  | ["config", "show"] => return .showConfig (given.lookup "section") (path? given "path")
  | _ => .error .noCommand

def workingDir (disk : Disk) (path : Option Path) : Except Failure Path :=
  match disk.canonical? (path.getD ⟨"."⟩) with
  | some dir => .ok dir
  | none => .error (.setting .invalidPath)

-- The configuration of a command. A directory that it names is the base path too.
def configOf (disk : Disk) (home : Option Path) (path : Option Path) (flags : Flags) :
    Attempt Config := do
  let dir ← workingDir disk path
  Config.resolve disk home dir { flags with basePath := path.map fun _ => dir }.layer

def run (home : Option Path) : Command → Publishing String
  | .scan path flags => do
    let config ← Publishing.reading fun disk => configOf disk home path flags
    let _ ← Run.Scan.run config
    return ""
  | .convert inputDir path flags => do
    let config ← Publishing.reading fun disk => configOf disk home path flags
    let _ ← Run.Conversion.run config inputDir
    return ""
  | .showPackage dir format => do
    let report ← Publishing.reading fun disk => Sdk.PackageReport.of (.ofDisk disk) dir
    return report.render format
  | .showConfig section? path => do
    let config ← Publishing.reading fun disk => do
      Config.resolve disk home (← workingDir disk path) ({} : Flags).layer
    return config.report section?

end Command

end CallAtlas
