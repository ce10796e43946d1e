import CallAtlas.Sdk.Convention
import CallAtlas.Sdk.SourceTree
import CallAtlas.Text.Pattern

namespace CallAtlas.Sdk.Generated

open CallAtlas.Text

def generatorLead : String := "GenReqDefFor"

def methodPattern : Pattern :=
  [word "WithMethod(http.Method", .opens, .many isWord, .closes, word ")"]

def pathPattern : Pattern :=
  [word "WithPath(\"", .opens, .many Pattern.notNewline, .closes, word "\")"]

def generatorPattern : Pattern :=
  [word ":= ", .opens, word generatorLead, .many isWord, .closes, word "()"]

-- A request is described by its method and its path; one without the other counts for nothing.
def described? (f : Go.Function) : Option Endpoint :=
  if startsWith f.name generatorLead then
    match methodPattern.find? f.source, pathPattern.find? f.source with
    | some method, some path =>
      (Method.ofVerb? (method.group 0)).map fun m => ⟨path.group 0, m⟩
    | _, _ => none
  else none

-- The requests by the functions that describe them; of functions with one name the last counts.
def descriptions (file : Go.SourceFile) : SortedMap String Endpoint :=
  SortedMap.ofList (file.functions.filterMap fun f => (described? f).map (f.name, ·))

-- The last client file and the last file of descriptions in a directory.
def clientAndMeta? (tree : SourceTree) (dir : Path) : Option (Path × Path) :=
  let names := (tree.list dir).reverse
  match names.find? (endsWith · "_client.go"), names.find? (endsWith · "_meta.go") with
  | some client, some described => some (dir.join client, dir.join described)
  | _, _ => none

def operations (metaPath : Path) (requests : SortedMap String Endpoint) :
    List Go.Function → EndpointTable → Resolving EndpointTable
  | [], table => return table
  | f :: rest, table => do
    match generatorPattern.find? f.source with
    | none => operations metaPath requests rest table
    | some m =>
      match requests.get? (m.group 0) with
      | some e => operations metaPath requests rest (table.insert f.name e)
      | none =>
        Resolving.warn
          s!"{m.group 0} is used by {f.name} but not defined in {metaPath.text}"
        operations metaPath requests rest table

def resolvePackage (tree : SourceTree) (dir : Path) : Resolving (Option EndpointTable) := do
  match clientAndMeta? tree dir with
  | none => return none
  | some (clientPath, metaPath) =>
    match ← Resolving.parseFile tree metaPath with
    | none => return none
    | some described =>
      match ← Resolving.parseFile tree clientPath with
      | none => return none
      | some client =>
        return some (← operations metaPath (descriptions described) client.functions {})

-- The imported packages of this convention; a package's models count as the package.
def packages (marker : String) (imports : List Go.Import) : List Package :=
  imports.foldl
    (fun found i =>
      let path := trimEndText "/model" i.path
      if contains i.path marker && !found.any (·.importPath == path) then
        found ++ [⟨i.givenName.getD (afterLast '/' path), path⟩]
      else found)
    []

def invocation : Pattern :=
  [word "= ", .opens, .many Pattern.notNewline, .one (fun c => c == 'c' || c == 'C'),
   word "lient", .closes, word ".", .opens, .many isWord, .closes, word "(", .opens,
   .many Pattern.notNewline, .one (fun c => c == ')' || c == '\x7b'), .closes]

-- The calls on clients, whichever package they belong to.
def invocations (source : String) : List Invocation :=
  (invocation.findAll source).map fun m => ⟨m.group 1, m.group 0, m.group 2⟩

def parameterClient? (receiver params : String) : Option ParameterClient :=
  let pattern : Pattern :=
    [.edge, word receiver, .one isBlank, .many isBlank, .maybe (· == '*'), .one isWord,
     .many isWord, word ".", .opens, .one isWord, .many isWord, word "Client", .closes, .edge]
  (pattern.find? params).map fun m => .typed (m.group 0)

def declaredClient? (receiver source : String) : Option String :=
  let pattern : Pattern :=
    [.edge, word receiver, word ", ", .one isWord, .many isWord, word " := ", .many isWord,
     .one Pattern.notNewline, .opens, .one Pattern.notNewline, .many Pattern.notNewline,
     word "Client", .closes]
  (pattern.find? source).map (·.group 0)

def detects (tree : SourceTree) (dir : Path) : Bool := (clientAndMeta? tree dir).isSome

end CallAtlas.Sdk.Generated
