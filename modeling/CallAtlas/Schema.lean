import CallAtlas.Failure
import CallAtlas.Files.Body
import CallAtlas.Go.SourceFile
import CallAtlas.Json.Value
import CallAtlas.Provider

namespace CallAtlas

open CallAtlas.Text

structure Schema where
  provider : String
  resources : List String := []
  dataSources : List String := []
  deriving Repr, DecidableEq

namespace Schema

def markRoom : Nat := 121

-- A type of a dump is deprecated if its block has a mark other than null.
def deprecatedBlock? (block : Json.Value) : Option Bool := do
  match ← Readable.record? [⟨["deprecated"], true⟩] block with
  | [none] => return false
  | [some .null] => return false
  | [some v] => if v.fits markRoom then return true else none
  | _ => none

def deprecatedType? (type : Json.Value) : Option Bool := do
  match ← Readable.record? [⟨["block"], true⟩] type with
  | [block] => Readable.withDefault false deprecatedBlock? block
  | _ => none

def exportedTypes? (types : Json.Value) : Option (List String) := do
  let marks ← Readable.map? deprecatedType? types
  return (marks.entries.filter (!·.2)).map fun e => Go.resourceName e.1

def exportedEntry? (entry : Json.Value) : Option (List String × List String) := do
  match ← Readable.record? [⟨["resource_schemas"], true⟩, ⟨["data_source_schemas"], true⟩] entry with
  | [resources, dataSources] =>
    let resources ← Readable.withDefault [] exportedTypes? resources
    let dataSources ← Readable.withDefault [] exportedTypes? dataSources
    return (resources, dataSources)
  | _ => none

def dump? (v : Json.Value) : Option (SortedMap String (List String × List String)) := do
  match ← Readable.record? [⟨["provider_schemas"], true⟩] v with
  | [providers] => Readable.withDefault {} (Readable.map? exportedEntry?) providers
  | _ => none

def acceptAll (provider : String) : Schema := { provider }

-- Reads the types of all providers of a dump whose address contains the given name.
def ofJson (content provider : String) : Except Failure Schema :=
  match Json.read? content >>= dump? with
  | none => .error .json
  | some providers =>
    let chosen := (providers.entries.filter fun e => contains e.1 provider).map (·.2)
    .ok { provider, resources := chosen.flatMap (·.1), dataSources := chosen.flatMap (·.2) }

def ofFile (path : Path) (body : Option Body) (provider : String) : Except Failure Schema :=
  match body.bind Body.text? with
  | none => .error (.missing .providerSchema path)
  | some content => ofJson content provider

def isEmpty (s : Schema) : Bool := s.resources.isEmpty && s.dataSources.isEmpty

def publishedName (s : Schema) (type : String) : String :=
  Provider.rename (Go.resourceName type) s.provider

-- A file stem names an exported type. An empty schema accepts every stem.
def isExported (s : Schema) (stem : String) : Bool :=
  if s.isEmpty then true
  else
    match stripStart? stem "data_source_" with
    | some type => s.dataSources.contains (s.publishedName type)
    | none =>
      match stripStart? stem "resource_" with
      | some type => s.resources.contains (s.publishedName type)
      | none => false

end Schema

end CallAtlas
