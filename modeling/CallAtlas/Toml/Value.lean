import CallAtlas.Data.Readable

namespace CallAtlas.Toml

-- What opened a table decides how it may be extended.
inductive Opening where
  | header
  | longerHeader
  | dottedKey
  | inline
  deriving Repr, DecidableEq

-- A value. Numbers and times are told apart from all else and not from each other.
inductive Value where
  | text (content : String)
  | truth (b : Bool)
  | number
  | time
  | list (items : List Value)
  | tables (items : List (Opening × List (String × Value)))
  | table (opening : Opening) (entries : List (String × Value))
  deriving Repr, Inhabited

structure Table where
  opening : Opening
  entries : List (String × Value) := []

namespace Table

def get? (t : Table) (key : String) : Option Value := t.entries.lookup key

def put (t : Table) (key : String) (v : Value) : Table :=
  if (t.get? key).isSome then
    { t with entries := t.entries.map fun e => if e.1 == key then (key, v) else e }
  else { t with entries := t.entries ++ [(key, v)] }

def toValue (t : Table) : Value := .table t.opening t.entries

-- Changes the table at the end of a path of keys; tables on the way are made where there are none.
-- Of a list of tables the last one is meant. Dotted keys do not go through tables that have headers
-- of their own.
def alterAt (dotted : Bool) : List String → (Table → Option Table) → Table → Option Table
  | [], f, t => f t
  | key :: path, f, t => do
    match t.get? key with
    | none =>
      let child ← alterAt dotted path f ⟨if dotted then .dottedKey else .longerHeader, []⟩
      return t.put key child.toValue
    | some (.table opening entries) =>
      if opening == .inline || (dotted && opening == .header) then none
      else
        let child ← alterAt dotted path f ⟨opening, entries⟩
        return t.put key child.toValue
    | some (.tables items) =>
      match items.getLast? with
      | none => none
      | some (opening, entries) =>
        let child ← alterAt dotted path f ⟨opening, entries⟩
        return t.put key (.tables (items.dropLast ++ [(child.opening, child.entries)]))
    | some _ => none

-- Enters a value under a new key. A dotted key ends in a table that dotted keys made.
def enter (path : List String) (key : String) (v : Value) : Table → Option Table :=
  alterAt true path fun t =>
    if (t.opening == .dottedKey) == path.isEmpty || (t.get? key).isSome then none
    else some (t.put key v)

def openTable (path : List String) (key : String) : Table → Option Table :=
  alterAt false path fun t =>
    match t.get? key with
    | none => some (t.put key (.table .header []))
    | some (.table .longerHeader entries) => some (t.put key (.table .header entries))
    | some _ => none

def appendTable (path : List String) (key : String) : Table → Option Table :=
  alterAt false path fun t =>
    match t.get? key with
    | none => some (t.put key (.tables [(.header, [])]))
    | some (.tables items) => some (t.put key (.tables (items ++ [(.header, [])])))
    | some _ => none

end Table

namespace Value

-- Records may also be spelled as lists of their fields in order. A time has no field that a record
-- asks for.
instance : Readable Value where
  text?
    | .text content => some content
    | _ => none
  truth?
    | .truth b => some b
    | _ => none
  items?
    | .list items => some items
    | .tables items => some (items.map fun t => .table t.1 t.2)
    | _ => none
  entries?
    | .table _ entries => some entries
    | _ => none
  record? fields v :=
    match v with
    | .table _ entries => Readable.pickFields fields entries
    | .list items => Readable.alignFields fields items
    | .tables items => Readable.alignFields fields (items.map fun t => .table t.1 t.2)
    | .time => Readable.pickFields fields []
    | _ => none

end Value

end CallAtlas.Toml
