import CallAtlas.Toml.Scalar

namespace CallAtlas.Toml

open CallAtlas.Text

def skipComment (text : List Char) : List Char :=
  if text.head? == some '#' then text.dropWhile isInline else text

def afterLine? (text : List Char) : Option (List Char) :=
  match skipComment (skipSpace text) with
  | [] => some []
  | rest => afterBreak? rest

def isBareChar (c : Char) : Bool := c.toNat < 128 && (c.isAlphanum || c == '_' || c == '-')

def readSimpleKey (text : List Char) : Option (String × List Char) :=
  match text with
  | '"' :: rest =>
    (readBasic (rest.length + 1) [] rest).map fun (s, rest) => (String.ofList s, rest)
  | '\'' :: rest => (readLiteral rest).map fun (s, rest) => (String.ofList s, rest)
  | _ =>
    match text.takeWhile isBareChar with
    | [] => none
    | name => some (String.ofList name, text.drop name.length)

-- A key of one or more parts with dots between them: the parts before the last, and the last.
def readKey : Nat → List Char → Option (List String × String × List Char)
  | 0, _ => none
  | fuel + 1, text => do
    let (part, rest) ← readSimpleKey (skipSpace text)
    match skipSpace rest with
    | '.' :: rest =>
      let (path, last, rest) ← readKey fuel rest
      return (part :: path, last, rest)
    | rest => return ([], part, rest)

def skipLines : Nat → List Char → List Char
  | 0, text => text
  | fuel + 1, text =>
    let rest := skipComment (skipSpace text)
    match afterBreak? rest with
    | some next => skipLines fuel next
    | none => rest

mutual

def readValue : Nat → List Char → Option (Value × List Char)
  | 0, _ => none
  | fuel + 1, text =>
    match text with
    | [] => none
    | '"' :: _ => (readText text).map fun (s, rest) => (.text s, rest)
    | '\'' :: _ => (readText text).map fun (s, rest) => (.text s, rest)
    | '[' :: rest => (readItems fuel rest).map fun (vs, rest) => (.list vs, rest)
    | '\x7b' :: rest =>
      match skipSpace rest with
      | '\x7d' :: rest => some (.table .inline [], rest)
      | _ =>
        (readPairs fuel ⟨.inline, []⟩ rest).map fun (t, rest) => (.table .inline t.entries, rest)
    | _ => readWord text

-- The items of a list up to its closing bracket; a comma may follow the last.
def readItems : Nat → List Char → Option (List Value × List Char)
  | 0, _ => none
  | fuel + 1, text =>
    match skipLines (text.length + 1) text with
    | ']' :: rest => some ([], rest)
    | rest => do
      let (v, rest) ← readValue fuel rest
      match skipLines (rest.length + 1) rest with
      | ',' :: rest =>
        let (vs, rest) ← readItems fuel rest
        return (v :: vs, rest)
      | ']' :: rest => return ([v], rest)
      | _ => none

def readPairs : Nat → Table → List Char → Option (Table × List Char)
  | 0, _, _ => none
  | fuel + 1, t, text => do
    let (path, key, rest) ← readKey (text.length + 1) text
    match rest with
    | '=' :: rest =>
      let (v, rest) ← readValue fuel (skipSpace rest)
      let t ← t.enter path key v
      match skipSpace rest with
      | ',' :: rest => readPairs fuel t rest
      | '\x7d' :: rest => return (t, rest)
      | _ => none
    | _ => none

end

structure Build where
  root : Table := ⟨.header, []⟩
  current : List String := []

def header (b : Build) (text : List Char) : Option (Build × List Char) := do
  match text with
  | '[' :: text =>
    let (path, key, rest) ← readKey (text.length + 1) text
    match rest with
    | ']' :: ']' :: rest =>
      let root ← b.root.appendTable path key
      return (⟨root, path ++ [key]⟩, rest)
    | _ => none
  | _ =>
    let (path, key, rest) ← readKey (text.length + 1) text
    match rest with
    | ']' :: rest =>
      let root ← b.root.openTable path key
      return (⟨root, path ++ [key]⟩, rest)
    | _ => none

def entry (b : Build) (text : List Char) : Option (Build × List Char) := do
  let (path, key, rest) ← readKey (text.length + 1) text
  match rest with
  | '=' :: rest =>
    let (v, rest) ← readValue (2 * rest.length + 2) (skipSpace rest)
    let root ← b.root.alterAt false b.current (Table.enter path key v)
    return ({ b with root }, rest)
  | _ => none

def readDocument : Nat → Build → List Char → Option Build
  | 0, _, _ => none
  | fuel + 1, b, text =>
    match skipSpace text with
    | [] => some b
    | '[' :: rest => do
      let (b, rest) ← header b rest
      readDocument fuel b (← afterLine? rest)
    | c :: rest =>
      if c == '#' || c == '\n' || c == '\r' then do
        readDocument fuel b (← afterLine? (c :: rest))
      else do
        let (b, rest) ← entry b (c :: rest)
        readDocument fuel b (← afterLine? rest)

def read? (s : String) : Option Value :=
  let text :=
    match s.toList with
    | c :: rest => if c.toNat == 0xFEFF then rest else c :: rest
    | [] => []
  (readDocument (text.length + 1) {} text).map fun b => b.root.toValue

end CallAtlas.Toml
