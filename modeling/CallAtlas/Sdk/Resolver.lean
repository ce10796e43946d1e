import CallAtlas.Catalog.Index
import CallAtlas.Sdk.Generated
import CallAtlas.Sdk.Rest

namespace CallAtlas.Sdk

namespace Convention

def packages (c : Convention) (imports : List Go.Import) : List Package :=
  match c.kind with
  | .rest => Rest.packages c.marker imports
  | .generated => Generated.packages c.marker imports

def invocations (c : Convention) (source : String) (package : Package) : List Invocation :=
  match c.kind with
  | .rest => Rest.invocations source package
  | .generated => Generated.invocations source

def resolvePackage (c : Convention) (tree : SourceTree) (dir : Path) :
    Resolving (Option EndpointTable) :=
  match c.kind with
  | .rest => Rest.resolvePackage tree dir
  | .generated => Generated.resolvePackage tree dir

def parameterClient? (c : Convention) (receiver params : String) : Option ParameterClient :=
  match c.kind with
  | .rest => Rest.parameterClient? receiver params
  | .generated => Generated.parameterClient? receiver params

def declaredClient? (c : Convention) (receiver source : String) : Option String :=
  match c.kind with
  | .rest => Rest.declaredClient? receiver source
  | .generated => Generated.declaredClient? receiver source

def category? (c : Convention) (constructorName : String) (index : Catalog.Index) :
    Option String :=
  match c.kind with
  | .rest => index.category? constructorName
  | .generated => index.categoryOrSuffix? constructorName

def detects (c : Convention) (tree : SourceTree) (dir : Path) : Bool :=
  match c.kind with
  | .rest => Rest.detects tree dir
  | .generated => Generated.detects tree dir

end Convention

structure Vendor where
  tree : SourceTree
  root : Path

namespace Vendor

def packageDir (v : Vendor) (importPath : String) : Path := v.root.join importPath

def storeEndpoints (dir : Path) (table : EndpointTable) : Resolving Unit :=
  modify fun s =>
    { s with
      cache := table.entries.foldl (fun c e => c.insertEndpoint dir e.1 e.2) s.cache }

-- A directory is marked before it is read, so that a failure is remembered too.
def endpoint? (v : Vendor) (c : Convention) (importPath function : String) :
    Resolving (Option Endpoint) := do
  let dir := v.packageDir importPath
  let s ← get
  let (cache, new) := s.cache.markPackage dir
  set { s with cache }
  if new then
    match ← c.resolvePackage v.tree dir with
    | some table => storeEndpoints dir table
    | none => pure ()
  let s ← get
  let (cache, found) := s.cache.endpoint? dir function
  set { s with cache }
  return found

end Vendor

end CallAtlas.Sdk
