import CallAtlas.Call.Basic
import CallAtlas.Catalog.Registry
import CallAtlas.Json.Writer
import CallAtlas.Provider
import CallAtlas.Yaml.Writer

namespace CallAtlas

open CallAtlas.Text

inductive DocumentFormat where
  | yaml
  | json
  deriving Repr, DecidableEq

def DocumentFormat.text : DocumentFormat → String
  | .yaml => "yaml"
  | .json => "json"

def DocumentFormat.render (f : DocumentFormat) (t : Tree) : String :=
  match f with
  | .yaml => Yaml.render t
  | .json => Json.render t ++ "\n"

structure Operation where
  tag : String
  operationId : String
  deriving Repr, DecidableEq

abbrev Paths := SortedMap String (SortedMap String Operation)

-- The first call of a path and method describes it.
def Paths.addNew (paths : Paths) (path method : String) (o : Operation) : Paths :=
  paths.alter path fun methods => (methods.getD {}).insertNew method o

structure Document where
  version : String
  title : String
  description : String
  servers : List String
  schemes : List String
  host : String
  tags : List String
  paths : Paths
  deriving Repr

structure DocumentSettings where
  provider : String
  version : String
  host : String
  deriving Repr

namespace Document

def pendingDescription : String :=
  "404.This resource is waiting to be upgraded, so there is none method output."

-- The tag of a resource without calls: the product of the service that its name mentions, or that
-- mention in upper case.
def fallbackTag? (resource : String) (registry : Catalog.Registry) : Option String :=
  let place := if startsWith resource "data_source_" then 3 else 2
  ((split '_' resource)[place]?).map fun service =>
    match registry.get? service with
    | some s => if s.product == "" then toUpper service else s.product
    | none => toUpper service

def addTag (tags : List String) (tag : String) : List String :=
  if tags.contains tag then tags else tags ++ [tag]

def tagsOf (calls : List Call) : List String :=
  calls.foldl (fun tags c => addTag tags c.service.name) []

def pathsOf (calls : List Call) : Paths :=
  calls.foldl
    (fun paths c => paths.addNew c.fullPath c.method.text ⟨c.service.name, c.operationId⟩) {}

def build (resource : String) (calls : List Call) (pending : Bool) (settings : DocumentSettings)
    (registry : Catalog.Registry) : Document :=
  let tags := tagsOf calls
  { version := settings.version
    title := Provider.rename resource settings.provider
    description := if pending then pendingDescription else ""
    servers := []
    schemes := ["https"]
    host := settings.host
    tags := if tags.isEmpty then (fallbackTag? resource registry).toList else tags
    paths := pathsOf calls }

def operationTree (o : Operation) : Tree :=
  .record <|
    ("tag", .text o.tag) ::
      (if o.operationId == "" then [] else [("operationId", .text o.operationId)])

def pathsTree (paths : Paths) : Tree :=
  .record <| paths.entries.map fun (path, methods) =>
    (path, .record (methods.entries.map fun (method, o) => (method, operationTree o)))

-- The fields of a document in order; servers and schemes stand only if there are some.
def tree (d : Document) : Tree :=
  let unlessEmpty (key : String) (items : List Tree) : List (String × Tree) :=
    if items.isEmpty then [] else [(key, .list items)]
  .record <|
    [("info",
      .record
        [("version", .text d.version), ("title", .text d.title),
         ("description", .text d.description)])] ++
    unlessEmpty "servers" (d.servers.map fun url => .record [("url", .text url)]) ++
    unlessEmpty "schemes" (d.schemes.map .text) ++
    [("host", .text d.host), ("tags", .list (d.tags.map fun name => .record [("name", .text name)])),
     ("paths", pathsTree d.paths)]

def render (d : Document) (format : DocumentFormat) : String := format.render d.tree

end Document

end CallAtlas
