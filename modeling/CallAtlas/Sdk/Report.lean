import CallAtlas.Document.Basic
import CallAtlas.Failure
import CallAtlas.Sdk.Resolver

namespace CallAtlas.Sdk

structure PackageReport where
  kind : Kind
  directory : Path
  functions : EndpointTable
  deriving Repr

namespace PackageReport

-- The convention of a directory; generated packages are looked for first.
def conventionOf? (tree : SourceTree) (dir : Path) : Option Convention :=
  [Convention.of .generated none, Convention.of .rest none].find? fun c => c.detects tree dir

def of (tree : SourceTree) (dir : Path) : Attempt PackageReport := do
  match conventionOf? tree dir with
  | none => throw (.setting (.notAPackage dir))
  | some c =>
    let (table, _) ← ((c.resolvePackage tree dir).run {} : Noted _)
    return ⟨c.kind, dir, table.getD {}⟩

def endpointTree (e : Endpoint) : Tree :=
  .record [("url", .text e.url), ("method", .text e.method.text)]

def tree (r : PackageReport) : Tree :=
  .record
    [("convention", .text r.kind.text), ("directory", .text r.directory.text),
     ("functions", .record (r.functions.entries.map fun (name, e) => (name, endpointTree e)))]

def render (r : PackageReport) (format : DocumentFormat) : String := format.render r.tree

end PackageReport

end CallAtlas.Sdk
