import CallAtlas.Sdk.Convention
import CallAtlas.Sdk.Exception
import CallAtlas.Sdk.SourceTree

namespace CallAtlas.Sdk.Rest

open CallAtlas.Text

def requestFiles : List String := ["requests.go", "request.go"]

def urlFiles : List String := ["urls.go", "url.go", "utils.go"]

def verbs : List String :=
  ["Head", "Get", "Post", "Put", "Patch", "Delete", "DeleteWithBody", "DeleteWithResponse",
   "DeleteWithBodyResp"]

-- A function that joins path segments, and how many of its first arguments are none.
structure Builder where
  pattern : Pattern
  skip : Nat

def builders : List Builder :=
  [⟨[word ".ServiceURL(", .opens, .many Pattern.notNewline, .closes, word ")"], 0⟩,
   ⟨[word "return", .one isBlank, .many Pattern.notNewline, word "CCEServiceURL(", .opens,
     .many Pattern.notNewline, .closes, word ")"], 2⟩]

def segment (literal? : String → Option String) (arg : String) : String :=
  if containsChar arg '"' then String.ofList (arg.toList.filter (· != '"'))
  else
    match literal? arg with
    | some value => value
    | none =>
      if endsWith arg ".ProjectID" then "\x7bproject_id\x7d" else "\x7b" ++ arg ++ "\x7d"

def builderArguments? (source : String) : Option (List String) :=
  builders.findSome? fun b =>
    (b.pattern.find? source).map fun m => (split ',' (m.group 0)).drop b.skip

def builderUrl? (literal? : String → Option String) (source : String) : Option String :=
  (builderArguments? source).map fun args =>
    join "/" (((args.map trim).filter (· != "")).map (segment literal?))

def delegation : Pattern :=
  [word "return", .one isBlank, .opens, .one isWord, .many isWord, .closes, word "("]

-- Stores a builder's URL; a fixed one comes first.
def storeUrl (file : Path) (function url : String) : Resolving Unit :=
  modify fun s =>
    { s with cache := s.cache.insertUrl file function ((fixedUrl? file function).getD url) }

inductive UrlFunction where
  | builds (url : String)
  | delegates (callee : String)
  | neither

def urlFunction (file : Go.SourceFile) (f : Go.Function) : UrlFunction :=
  match builderUrl? file.literal? f.source with
  | some url => .builds url
  | none =>
    match delegation.find? f.source with
    | some m => .delegates (m.group 0)
    | none => .neither

-- Stores the URLs of builders; the functions that delegate, with what they delegate to, are left.
def storeBuilders (path : Path) (file : Go.SourceFile) :
    List Go.Function → Resolving (List (String × String))
  | [] => return []
  | f :: rest => do
    match urlFunction file f with
    | .builds url =>
      storeUrl path f.name url
      storeBuilders path file rest
    | .delegates callee => return (f.name, callee) :: (← storeBuilders path file rest)
    | .neither =>
      Resolving.warn s!"Cannot parse URL function {f.name} in {path.text}"
      storeBuilders path file rest

def storeDelegations (path : Path) : List (String × String) → Resolving Unit
  | [] => return ()
  | (function, callee) :: rest => do
    match (← get).cache.url? path callee with
    | some url => storeUrl path function url
    | none =>
      Resolving.warn
        s!"Cannot parse URL function {function} delegating to {callee} in {path.text}"
    storeDelegations path rest

def readUrlFile (tree : SourceTree) (path : Path) : Resolving Unit := do
  match ← Resolving.parseFile tree path with
  | none => return ()
  | some file =>
    let delegating ← storeBuilders path file file.functions
    storeDelegations path delegating

-- The URL of a builder; its file is read when it is first asked for.
def urlOf (tree : SourceTree) (path : Path) (builder : String) : Resolving (Option String) := do
  let s ← get
  let (cache, new) := s.cache.markUrlFile path
  set { s with cache }
  if new then readUrlFile tree path
  let url := (← get).cache.url? path builder
  if url.isNone then
    Resolving.warn s!"Failed to resolve URL of {builder} in {path.text}"
  return url

inductive UrlSource where
  | builder (name : String)
  | variable (name : String)
  deriving Repr

structure Request where
  method : Method
  source : UrlSource
  deriving Repr

-- A call such as `client.Get(listURL(client), …)`.
def verbCall (closing : String) : Pattern :=
  [word ".", .opens, .oneOf (verbs.map String.toList), .closes, word "(", .opens, .many isWord,
   .closes, word closing]

def pagerCall (closing : String) : Pattern :=
  [word "NewPager(", .many isWord, word ",", .many isBlank, .opens, .many isWord, .closes,
   word closing]

def verbRequest (source : String → UrlSource) (m : Match) : Option Request :=
  (Method.ofVerb? (m.group 0)).map fun method => ⟨method, source (m.group 1)⟩

def pagerRequest (source : String → UrlSource) (m : Match) : Option Request :=
  some ⟨.get, source (m.group 0)⟩

-- The four shapes of a request, in the order in which they are tried.
def shapes : List (Pattern × (Match → Option Request)) :=
  [(verbCall "(", verbRequest .builder), (verbCall ",", verbRequest .variable),
   (pagerCall "(", pagerRequest .builder), (pagerCall ",", pagerRequest .variable)]

def requests? (source : String) : Option (List Request) :=
  shapes.findSome? fun (pattern, read) =>
    match pattern.findAll source with
    | [] => none
    | found => some (found.filterMap read)

def variableBuilder? (name source : String) : Option String :=
  let pattern : Pattern :=
    [.edge, word name, .many isBlank, word ":=", .many isBlank, .opens, .many isWord, .closes]
  match pattern.find? source with
  | some m => if m.group 0 == "" then none else some (m.group 0)
  | none => none

def Request.builder? (r : Request) (source : String) : Option String :=
  match r.source with
  | .builder name => some name
  | .variable name => variableBuilder? name source

-- The endpoint of the last request whose URL is known.
def lastEndpoint (tree : SourceTree) (urlFile : Path) (source : String) :
    List Request → Option Endpoint → Resolving (Option Endpoint)
  | [], found => return found
  | r :: rest, found => do
    match r.builder? source with
    | none => lastEndpoint tree urlFile source rest found
    | some builder =>
      match ← urlOf tree urlFile builder with
      | some url => lastEndpoint tree urlFile source rest (some ⟨url, r.method⟩)
      | none => lastEndpoint tree urlFile source rest found

def directEndpoints (tree : SourceTree) (urlFile : Path) :
    List Go.Function → EndpointTable → Resolving (EndpointTable × List Go.Function)
  | [], table => return (table, [])
  | f :: rest, table => do
    match requests? f.source with
    | none =>
      let (table, left) ← directEndpoints tree urlFile rest table
      return (table, f :: left)
    | some requests =>
      match ← lastEndpoint tree urlFile f.source requests none with
      | some e => directEndpoints tree urlFile rest (table.insert f.name e)
      | none => directEndpoints tree urlFile rest table

-- Enters functions that call one with an endpoint; the last such call counts.
def copyEndpoints (calls : Pattern) : List Go.Function → EndpointTable → EndpointTable
  | [], table => table
  | f :: rest, table =>
    let copied := ((calls.findAll f.source).filterMap fun m => table.get? (m.group 0)).getLast?
    match copied with
    | some e => copyEndpoints calls rest (table.insert f.name e)
    | none => copyEndpoints calls rest table

def localCalls (table : EndpointTable) : Pattern :=
  [.edge, .opens, .oneOf (table.keys.map String.toList), .closes, word "("]

def firstExisting? (tree : SourceTree) (dir : Path) (names : List String) : Option Path :=
  (names.map dir.join).find? tree.isFile

def resolvePackage (tree : SourceTree) (dir : Path) : Resolving (Option EndpointTable) := do
  match firstExisting? tree dir requestFiles, firstExisting? tree dir urlFiles with
  | some requestPath, some urlPath =>
    match ← Resolving.parseFile tree requestPath with
    | none => return none
    | some file =>
      let (table, left) ← directEndpoints tree urlPath file.functions {}
      return some (copyEndpoints (localCalls table) left table)
  | _, _ => return none

-- The imported packages of this convention; of those with one name the first.
def packages (marker : String) (imports : List Go.Import) : List Package :=
  imports.foldl
    (fun found i =>
      if contains i.path marker && !found.any (·.localName == i.localName) then
        found ++ [⟨i.localName, i.path⟩]
      else found)
    []

def invocation (localName : String) : Pattern :=
  [.edge, word localName, word ".", .opens, .many isWord, .closes, word "(", .opens, .many isWord,
   .closes, .opens, .many Pattern.notNewline, .closes]

-- The calls into a package. A call takes the rest of its line.
def invocations (source : String) (package : Package) : List Invocation :=
  ((invocation package.localName).findAll source).map fun m => ⟨m.group 0, m.group 1, m.group 2⟩

def parameterClient? (receiver params : String) : Option ParameterClient :=
  let pattern : Pattern :=
    [.edge, word receiver, .one isBlank, word "*golangsdk.ServiceClient", .edge]
  (pattern.find? params).map fun m =>
    .viaCaller ((params.toList.take m.lead).count ',' + 1)

def declaredClient? (receiver source : String) : Option String :=
  let pattern : Pattern :=
    [.edge, word receiver, .many isBlank, word ",", .many isBlank, .many isWord, .many isBlank,
     .maybe (· == ':'), word "=", .many isBlank, .many isWord, word ".", .opens, .many isWord,
     .closes]
  match pattern.find? source with
  | some m => if m.group 0 == "" then none else some (m.group 0)
  | none => none

def detects (tree : SourceTree) (dir : Path) : Bool :=
  requestFiles.any (fun n => tree.isFile (dir.join n)) &&
    urlFiles.any (fun n => tree.isFile (dir.join n))

end CallAtlas.Sdk.Rest
