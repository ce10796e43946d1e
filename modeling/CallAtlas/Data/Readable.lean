import CallAtlas.Data.SortedMap

namespace CallAtlas

-- A field of a record: the keys that name it, and whether a list that spells the record may end
-- before it.
structure Field where
  keys : List String
  mayEndBefore : Bool := true
  deriving Repr, DecidableEq

-- How a data format's values are looked at; the readers of the program's types are written over
-- this.
class Readable (ν : Type) where
  text? : ν → Option String
  truth? : ν → Option Bool
  items? : ν → Option (List ν)
  entries? : ν → Option (List (String × ν))
  record? : List Field → ν → Option (List (Option ν))

namespace Readable

variable {ν α : Type}

-- The value of a field among named entries; one that is given twice is a fault.
def pickField (entries : List (String × ν)) (f : Field) : Option (Option ν) :=
  match entries.filter fun e => f.keys.contains e.1 with
  | [] => some none
  | [e] => some (some e.2)
  | _ => none

def pickFields (fields : List Field) (entries : List (String × ν)) : Option (List (Option ν)) :=
  fields.mapM (pickField entries)

def alignFields : List Field → List ν → Option (List (Option ν))
  | [], _ => some []
  | _ :: fields, v :: values => (alignFields fields values).map (some v :: ·)
  | f :: fields, [] =>
    if f.mayEndBefore then (alignFields fields []).map (none :: ·) else none

variable [Readable ν]

def optional (read : ν → Option α) : Option ν → Option (Option α)
  | none => some none
  | some v => (read v).map some

def withDefault (default : α) (read : ν → Option α) : Option ν → Option α
  | none => some default
  | some v => read v

def list? (read : ν → Option α) (v : ν) : Option (List α) := do
  let items ← items? v
  items.mapM read

-- A map; the last entry of a key counts, but every value must be readable.
def map? (read : ν → Option α) (v : ν) : Option (SortedMap String α) := do
  let entries ← entries? v
  let entries ← entries.mapM fun (key, value) => (read value).map (key, ·)
  return SortedMap.ofList entries

end Readable

end CallAtlas
