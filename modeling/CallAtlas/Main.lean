import CallAtlas.Command.Basic

namespace CallAtlas.Main

open CallAtlas.Text

-- Files that count in every directory above those of a run.
def marks : List String :=
  [Config.projectFileName, IgnoreFile.fileName, ".ignore", ".gitignore", ".git/info/exclude"]

def placeOf (text : String) : Place := (split '/' text).filter (· != "")

-- What is at a place and below it. Links to directories are not followed.
partial def load (at_ : Place) : IO (List (Place × Entry)) := do
  let text := (Disk.pathOf at_).text
  let path := (← IO.currentDir) / text
  try
    match (← path.metadata).type with
    | .dir =>
      if (← path.symlinkMetadata).type == .symlink then return []
      let names := (← path.readDir).toList.map (·.fileName)
      let below ← names.mapM fun name => load (at_ ++ [name])
      return (at_, .dir) :: below.flatten
    | .file => return [(at_, .file (.raw (← IO.FS.readBinFile path).toList))]
    | _ => return []
  catch _ => return []

def repositoryIn (dir : Place) : IO (List (Place × Entry)) := do
  let at_ := dir ++ [".git"]
  let path := (← IO.currentDir) / (Disk.pathOf at_).text
  return if ← path.pathExists then [(at_, .dir)] else []

def loadMarks (at_ : Place) : IO (List (Place × Entry)) := do
  let found ← (at_ :: Disk.holders at_).mapM fun dir => do
    let files ← marks.mapM fun mark => load (dir ++ placeOf mark)
    return (← repositoryIn dir) ++ files.flatten
  return found.flatten

def extend (disk : Disk) (entries : List (Place × Entry)) : Disk :=
  entries.foldl (fun d e => d.addFile e.1 e.2) disk

def realPlace? (path : Path) : IO (Option Place) := do
  let text := ((← IO.currentDir) / path.text).toString
  try return some (placeOf (← IO.FS.realPath text).toString) catch _ => return none

def need (disk : Disk) (path : Path) : IO Disk := do
  match ← realPlace? path with
  | none => return disk
  | some at_ => return extend disk ((← loadMarks at_) ++ (← load at_))

def needSettings (home : Option Path) (path : Option Path) (disk : Disk) : IO Disk := do
  let disk ←
    match ← realPlace? (path.getD ⟨"."⟩) with
    | none => pure disk
    | some at_ =>
      let isDir ← ((← IO.currentDir) / (Disk.pathOf at_).text).isDir
      let here ← if isDir then pure [(at_, Entry.dir)] else load at_
      pure (extend disk (here ++ (← loadMarks at_)))
  match home.map Config.userFile with
  | none => return disk
  | some file => return extend disk (← load (placeOf file.text))

def pathsOf (s : Settings) : List Path :=
  [s.sourceRoot, s.configPath, s.hcConfigPath, s.catalogPath, s.vendorRoot, s.outputRoot] ++
    (s.schema.map s.underBase).toList

def gather (home : Option Path) (command : Command) (start : Place) : IO Disk := do
  let bare := ({ start } : Disk).addFile start .dir
  let withPaths (path : Option Path) (flags : Flags) (more : List Path) : IO Disk := do
    let disk ← needSettings home path bare
    match (Command.configOf disk home path flags).run.value with
    | .error _ => return disk
    | .ok config => (pathsOf config.settings ++ more).foldlM need disk
  match command with
  | .scan path flags => withPaths path flags []
  | .convert inputDir path flags => withPaths path flags [inputDir]
  | .showPackage dir _ => need bare dir
  | .showConfig _ path => needSettings home path bare

def store (before after : Disk) : IO Unit := do
  for (at_, e) in after.entries do
    if before.entry? at_ != some e then
      let text := (Disk.pathOf at_).text
      match e with
      | .dir => IO.FS.createDirAll text
      | .file (.text content) => IO.FS.writeFile text content
      | .file (.raw _) => pure ()

def configHome : IO (Option Path) := do
  match ← IO.getEnv "XDG_CONFIG_HOME" with
  | some dir => if startsWith dir "/" then return some ⟨dir⟩ else fromHome
  | none => fromHome
where
  fromHome : IO (Option Path) := do
    return (← IO.getEnv "HOME").map fun home => (Path.mk home).join ".config"

def usageText : String :=
  "Usage: apiscan <scan|autogen|sdk|config show> [OPTIONS]\n"

def noticeText (n : Notice) : String :=
  match n.severity with
  | .warning => "WARN " ++ n.text
  | .error => "ERROR " ++ n.text

-- The files that a command needs are read into a value, and what it has changed is written back.
def perform (command : Command) : IO UInt32 := do
  let home ← configHome
  let disk ← gather home command (placeOf (← IO.currentDir).toString)
  let noted := ((command.run home).run.run disk : Noted _)
  noted.notices.forM fun n => IO.eprintln (noticeText n)
  store disk noted.value.2
  match noted.value.1 with
  | .ok text =>
    IO.print text
    return 0
  | .error e =>
    IO.eprintln e.message
    return 1

end CallAtlas.Main

def main (words : List String) : IO UInt32 := do
  match CallAtlas.Command.read words with
  | .ok command => CallAtlas.Main.perform command
  | .error .help =>
    IO.print CallAtlas.Main.usageText
    return 0
  | .error .version =>
    IO.println "apiscan 0.3.0"
    return 0
  | .error _ =>
    IO.eprint CallAtlas.Main.usageText
    return 2
