import CallAtlas.Call.Basic
import CallAtlas.Path

namespace CallAtlas.Sdk

structure Stats where
  packages : Nat
  urlFiles : Nat
  endpoints : Nat
  lookups : Nat
  deriving Repr, DecidableEq

structure Cache where
  urls : List (String × String) := []
  endpoints : List (String × Endpoint) := []
  urlFiles : List Path := []
  packages : List Path := []
  lookups : Nat := 0
  deriving Repr

namespace Cache

def key (path : Path) (function : String) : String := path.text ++ "." ++ function

-- The first entry of a key stays.
def addNew {α : Type} (entries : List (String × α)) (key : String) (value : α) :
    List (String × α) :=
  if (entries.lookup key).isSome then entries else entries ++ [(key, value)]

-- Adds a path unless the place it names is there.
def mark (marked : List Path) (path : Path) : List Path × Bool :=
  if marked.any (·.same path) then (marked, false) else (marked ++ [path], true)

def markPackage (c : Cache) (dir : Path) : Cache × Bool :=
  let (packages, new) := mark c.packages dir
  ({ c with packages }, new)

def markUrlFile (c : Cache) (file : Path) : Cache × Bool :=
  let (urlFiles, new) := mark c.urlFiles file
  ({ c with urlFiles }, new)

def insertEndpoint (c : Cache) (dir : Path) (function : String) (e : Endpoint) : Cache :=
  { c with endpoints := addNew c.endpoints (key dir function) e }

def insertUrl (c : Cache) (file : Path) (function url : String) : Cache :=
  { c with urls := addNew c.urls (key file function) url }

def endpoint? (c : Cache) (dir : Path) (function : String) : Cache × Option Endpoint :=
  ({ c with lookups := c.lookups + 1 }, c.endpoints.lookup (key dir function))

def url? (c : Cache) (file : Path) (function : String) : Option String :=
  c.urls.lookup (key file function)

def stats (c : Cache) : Stats :=
  ⟨c.packages.length, c.urlFiles.length, c.endpoints.length, c.lookups⟩

end Cache

end CallAtlas.Sdk
