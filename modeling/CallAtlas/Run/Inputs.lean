import CallAtlas.Catalog.File
import CallAtlas.Catalog.Index
import CallAtlas.Config.Resolved
import CallAtlas.Schema

namespace CallAtlas.Run

structure Inputs where
  index : Catalog.Index
  registry : Catalog.Registry
  schema : Schema

-- Reads the constructor index. The file for generated packages may be absent or faulty.
def readIndex (disk : Disk) (s : Settings) : Attempt Catalog.Index := do
  match disk.read? s.configPath with
  | none => throw (.missing .providerConfig s.configPath)
  | some body =>
    let file ← Go.SourceFile.ofBody s.configPath body
    let index := (({} : Catalog.Index).ingest file .service).1
    match (disk.read? s.hcConfigPath).map (Go.SourceFile.ofBody s.hcConfigPath) with
    | none => return index
    | some (.ok file) => return (index.ingest file .hc).1
    | some (.error e) =>
      Noted.warn s!"Skipping {s.hcConfigPath.text}: {e.message}"
      return index

-- Reads the schema of the settings; without one every resource is accepted.
def readSchema (disk : Disk) (s : Settings) : Except Failure Schema :=
  match s.schema.map s.underBase with
  | none => .ok (.acceptAll s.provider)
  | some path => Schema.ofFile path (disk.read? path) s.provider

def readInputs (disk : Disk) (s : Settings) : Attempt Inputs := do
  let index ← readIndex disk s
  let registry ← ExceptT.mk (Catalog.Registry.ofFile s.catalogPath (disk.read? s.catalogPath))
  if index.size == 0 || registry.size == 0 then
    Noted.warn "No client constructors or service catalogs found; categories will be blank"
  let schema ← readSchema disk s
  return { index, registry, schema }

end CallAtlas.Run
