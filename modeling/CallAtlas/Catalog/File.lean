import CallAtlas.Catalog.Registry
import CallAtlas.Files.Body
import CallAtlas.Json.Value
import CallAtlas.Yaml.Node

namespace CallAtlas.Catalog

def serviceFields : List Field :=
  [⟨["name", "Name"], false⟩, ⟨["version", "Version"], true⟩,
   ⟨["resource_base", "ResourceBase"], true⟩, ⟨["without_project_id", "WithOutProjectID"], true⟩,
   ⟨["product", "Product"], true⟩]

def readService? {ν : Type} [Readable ν] (v : ν) : Option Service := do
  match ← Readable.record? serviceFields v with
  | [name, version, base, without, product] =>
    let name ← name >>= Readable.text?
    let version ← Readable.withDefault "" Readable.text? version
    let resourceBase ← Readable.withDefault "" Readable.text? base
    let withoutProjectId ← Readable.withDefault false Readable.truth? without
    let product ← Readable.withDefault "" Readable.text? product
    return { name, version, resourceBase, withoutProjectId, product }
  | _ => none

def readServices? {ν : Type} [Readable ν] (v : ν) : Option Registry :=
  (Readable.map? readService? v).map fun services => ⟨services⟩

namespace Registry

-- Reads a registry file by its extension. A file without text counts as missing.
def ofFile (path : Path) (body : Option Body) : Noted (Except Failure Registry) :=
  match body.bind Body.text? with
  | none => pure (.error (.missing .serviceCatalog path))
  | some content =>
    let orFailure (f : Failure) (r : Option Registry) : Except Failure Registry :=
      match r with
      | some r => .ok r
      | none => .error f
    match path.extension?.getD "" with
    | "go" => ofGo path content
    | "yaml" => pure (orFailure .yaml (Yaml.read? content >>= readServices?))
    | "yml" => pure (orFailure .yaml (Yaml.read? content >>= readServices?))
    | "json" => pure (orFailure .json (Json.read? content >>= readServices?))
    | other => pure (.error (.setting (.catalogFormat other path)))

end Registry

end CallAtlas.Catalog
