import CallAtlas.Data.SortedMap
import CallAtlas.Go.SourceFile
import CallAtlas.Notice
import CallAtlas.Service
import CallAtlas.Text.Pattern

namespace CallAtlas.Catalog

open CallAtlas.Text

structure Registry where
  services : SortedMap String Service := {}
  deriving Repr

def registryVariable : String := "allServiceCatalog"

def quotedEnd : List Char → Option (List Char)
  | [] => none
  | '"' :: rest => some rest
  | '\\' :: c :: rest => if c == '\n' then none else quotedEnd rest
  | '\\' :: [] => none
  | _ :: rest => quotedEnd rest

def fieldValueEnd (text : List Char) : Option (List Char) :=
  match text with
  | '"' :: rest => quotedEnd rest
  | _ => (after? "true".toList text).or (after? "false".toList text)

def entryField : Pattern :=
  [.opens, .one isWord, .many isWord, .closes, .many isBlank, word ":", .many isBlank, .opens,
   .by_ fieldValueEnd, .closes]

def setField (s : Service) (m : Match) : Service :=
  let value := trimMatches (· == '"') (m.group 1)
  match m.group 0 with
  | "Name" => { s with name := value }
  | "Version" => { s with version := value }
  | "ResourceBase" => { s with resourceBase := value }
  | "Product" => { s with product := value }
  | "WithOutProjectID" => { s with withoutProjectId := value == "true" }
  | _ => s

-- The service of one entry, if its value is a literal. Without a name it takes that of its key.
def readEntry? (key body : String) : Option Service :=
  if startsWith (trimStart body) "\x7b" then
    some ((entryField.findAll body).foldl setField (Service.named key))
  else none

namespace Registry

def ofList (entries : List (String × Service)) : Registry := ⟨SortedMap.ofList entries⟩

def get? (r : Registry) (key : String) : Option Service := r.services.get? key

def size (r : Registry) : Nat := r.services.size

-- Adds the entries of a map literal; values that are no literals are passed over.
def addEntries (r : Registry) : List (String × String) → Noted Registry
  | [] => pure r
  | (key, body) :: rest =>
    match readEntry? key body with
    | some s => addEntries ⟨r.services.insert key s⟩ rest
    | none => do
      Noted.warn s!"Skipping service catalog entry {key}: not a literal"
      addEntries r rest

def ofGo (path : Path) (source : String) : Noted (Except Failure Registry) :=
  match Go.mapEntries path source registryVariable with
  | .error e => pure (.error e)
  | .ok none => pure (.error (.setting (.catalogVariable path)))
  | .ok (some entries) => do
    let r ← addEntries {} entries
    return .ok r

end Registry

end CallAtlas.Catalog
