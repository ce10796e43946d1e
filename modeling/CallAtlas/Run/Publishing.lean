import CallAtlas.Failure
import CallAtlas.Files.Disk

namespace CallAtlas

-- What has been written stays when the work fails later.
abbrev Publishing := ExceptT Failure (StateT Disk Noted)

namespace Publishing

def reading {α : Type} (f : Disk → Attempt α) : Publishing α :=
  ExceptT.mk fun disk => do
    let result ← (f disk).run
    return (result, disk)

-- A change of the file system. One that fails leaves the files that it gives.
def change (f : Disk → Except Disk Disk) : Publishing Unit :=
  ExceptT.mk fun disk =>
    match f disk with
    | .ok disk => return (.ok (), disk)
    | .error disk => return (.error .io, disk)

def makeDirectories (path : Path) : Publishing Unit := change (·.makeDirectories path)

def write (path : Path) (content : String) : Publishing Unit :=
  change fun disk =>
    match disk.write path content with
    | some written => .ok written
    | none => .error disk

end Publishing

end CallAtlas
