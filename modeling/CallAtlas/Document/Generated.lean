import CallAtlas.Document.Basic
import CallAtlas.Failure
import CallAtlas.Notice
import CallAtlas.Text.Quoted
import CallAtlas.Yaml.Node

namespace CallAtlas

open CallAtlas.Text

structure DescribedOperation where
  operationId : String := ""
  product : String := ""
  api : String := ""
  deriving Repr, DecidableEq

structure Description where
  text : String := ""
  servers : List String := []
  paths : SortedMap String (SortedMap String DescribedOperation) := {}
  deriving Repr, DecidableEq

namespace Description

def readInfo? (v : Yaml.View) : Option String := do
  match ← Readable.record? [⟨["description"], true⟩] v with
  | [description] => Readable.withDefault "" Readable.text? description
  | _ => none

def readServer? (v : Yaml.View) : Option String := do
  match ← Readable.record? [⟨["url"], true⟩] v with
  | [url] => Readable.withDefault "" Readable.text? url
  | _ => none

def readOperation? (v : Yaml.View) : Option DescribedOperation := do
  let fields : List Field :=
    [⟨["operationId"], true⟩, ⟨["x-ref-product"], true⟩, ⟨["x-ref-api"], true⟩]
  match ← Readable.record? fields v with
  | [operationId, product, api] =>
    let operationId ← Readable.withDefault "" Readable.text? operationId
    let product ← Readable.withDefault "" Readable.text? product
    let api ← Readable.withDefault "" Readable.text? api
    return { operationId, product, api }
  | _ => none

def readView? (v : Yaml.View) : Option Description := do
  match ← Readable.record? [⟨["info"], true⟩, ⟨["servers"], true⟩, ⟨["paths"], true⟩] v with
  | [info, servers, paths] =>
    let text ← Readable.withDefault "" readInfo? info
    let servers ← Readable.withDefault [] (Readable.list? readServer?) servers
    let paths ←
      Readable.withDefault {} (Readable.map? (Readable.map? readOperation?)) paths
    return { text, servers, paths }
  | _ => none

def ofYaml (content : String) : Except Failure Description :=
  match Yaml.read? content >>= readView? with
  | some d => .ok d
  | none => .error .yaml

-- The request that an operation names: a method and a path without spaces.
def request? (api : String) : Option (Method × String) := do
  let (verb, path) ← splitOnce? ' ' (trim api)
  let path := trim path
  if path == "" || containsChar path ' ' then none
  else
    let method ← Method.ofText? verb
    return (method, path)

def operations (d : Description) : List DescribedOperation := d.paths.values.flatMap (·.values)

end Description

namespace Document

def generatedHost : String := "myhuaweicloud.com"

structure Requests where
  paths : Paths := {}
  products : SortedMap String Unit := {}

-- Enters the request of an operation; an operation that names none is passed over.
def addRequest (resource : String) (r : Requests) (o : DescribedOperation) : Noted Requests :=
  match Description.request? o.api with
  | none => do
    Noted.warn s!"{resource}: bad x-ref-api {quoted o.api} on {o.operationId}"
    return r
  | some (method, path) =>
    return {
      paths := r.paths.addNew path method.text ⟨o.product, o.operationId⟩
      products := if o.product == "" then r.products else r.products.insert o.product () }

def ofDescription (resource : String) (d : Description) (provider version : String) :
    Noted Document := do
  let r ← d.operations.foldlM (addRequest resource) {}
  return {
    version
    title := Provider.rename resource provider
    description := d.text
    servers := d.servers
    schemes := []
    host := generatedHost
    tags := r.products.keys
    paths := r.paths }

end Document

end CallAtlas
