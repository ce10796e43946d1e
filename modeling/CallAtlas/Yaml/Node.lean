import CallAtlas.Data.Readable
import CallAtlas.Yaml.TokenStream

namespace CallAtlas.Yaml

-- An anchored node may be referred to from inside itself, so references stay numbers.
inductive Node where
  | scalar (tag : String) (form : Form) (text : String)
  | reference (id : Nat)
  | list (items : List Node)
  | map (entries : List (Node × Node))
  deriving Repr, Inhabited

def Node.blank : Node := .scalar "" .plain ""

-- What is left of the tokens, and the anchors met so far. `anchors` numbers the names and `owners`
-- the anchored nodes of each number, both latest first; `targets` has the nodes themselves.
structure Build where
  tokens : List Token
  anchors : List (String × Nat) := []
  owners : List (Nat × Nat) := []
  targets : List (Nat × Node) := []
  shorthands : List (String × String) := []

abbrev Building := StateT Build Option

namespace Building

def peek : Building (Option Token) := return (← get).tokens.head?

def advance : Building Unit := modify fun b => { b with tokens := b.tokens.drop 1 }

def fail {α : Type} : Building α := fun _ => none

def nextIsNot (ts : List Token) : Building Bool :=
  return (← peek).all fun t => !ts.contains t

-- Numbers an anchor by the names known before it, and gives the place of its node. A name that is
-- taken again gets the number of the next new name, and the last node of a number counts.
def declare (name : String) : Building Nat := do
  let b ← get
  let id := (b.anchors.map (·.1)).eraseDups.length
  let owner := b.owners.length
  set { b with anchors := (name, id) :: b.anchors, owners := (id, owner) :: b.owners }
  return owner

def bindTarget (owner : Nat) (n : Node) : Building Unit :=
  modify fun b => { b with targets := (owner, n) :: b.targets }

def tagName (handle suffix : String) : Building String := do
  if handle == "" then return suffix
  else
    match (← get).shorthands.lookup handle with
    | some lead => return lead ++ suffix
    | none => fail

def anchor? : Building (Option Nat) := do
  match ← peek with
  | some (.anchor name) =>
    advance
    return some (← declare name)
  | _ => return none

def tag? : Building (Option String) := do
  match ← peek with
  | some (.tag handle suffix) =>
    advance
    return some (← tagName handle suffix)
  | _ => return none

def properties : Building (Option Nat × Option String) := do
  match ← anchor? with
  | some a => return (some a, ← tag?)
  | none =>
    let t ← tag?
    return (← anchor?, t)

end Building

open Building

-- Where a node stands: in flow context, in a block, or in a block whose lists need no indentation.
inductive Place where
  | flow
  | block
  | blockValue
  deriving DecidableEq

mutual

def node : Nat → Place → Building Node
  | 0, _ => fail
  | fuel + 1, place => do
    match ← peek with
    | some (.reference name) =>
      advance
      match (← get).anchors.lookup name with
      | some id => return .reference id
      | none => fail
    | _ =>
      let (anchor, tag) ← properties
      let n ← content fuel place (anchor.isSome || tag.isSome) (tag.getD "")
      if let some owner := anchor then bindTarget owner n
      return n

def content : Nat → Place → Bool → String → Building Node
  | 0, _, _, _ => fail
  | fuel + 1, place, hasProperties, tag => do
    match ← peek with
    | some (.scalar form text) =>
      advance
      return .scalar tag form text
    | some .flowListStart =>
      advance
      return .list (← flowItems fuel true)
    | some .flowMapStart =>
      advance
      return .map (← flowEntries fuel true)
    | some .blockListStart =>
      if place == .flow then fail
      else
        advance
        return .list (← blockItems fuel)
    | some .blockMapStart =>
      if place == .flow then fail
      else
        advance
        return .map (← blockEntries fuel)
    | some .blockEntry =>
      if place == .blockValue then return .list (← openItems fuel)
      else if hasProperties then return .scalar tag .plain ""
      else fail
    | _ => if hasProperties then return .scalar tag .plain "" else fail

def blockItems : Nat → Building (List Node)
  | 0 => fail
  | fuel + 1 => do
    match ← peek with
    | some .blockEntry =>
      advance
      let n ←
        if ← nextIsNot [.blockEntry, .blockEnd] then node fuel .block else pure Node.blank
      return n :: (← blockItems fuel)
    | some .blockEnd =>
      advance
      return []
    | _ => fail

-- The items of a list that stands at the column of its key, up to what is no item.
def openItems : Nat → Building (List Node)
  | 0 => fail
  | fuel + 1 => do
    match ← peek with
    | some .blockEntry =>
      advance
      let n ←
        if ← nextIsNot [.blockEntry, .key, .value, .blockEnd] then node fuel .block
        else pure Node.blank
      return n :: (← openItems fuel)
    | _ => return []

def blockEntries : Nat → Building (List (Node × Node))
  | 0 => fail
  | fuel + 1 => do
    let part : Building Node := do
      if ← nextIsNot [.key, .value, .blockEnd] then node fuel .blockValue else pure Node.blank
    match ← peek with
    | some .key =>
      advance
      let key ← part
      let value ←
        match ← peek with
        | some .value => do
          advance
          part
        | _ => pure Node.blank
      return (key, value) :: (← blockEntries fuel)
    | some .blockEnd =>
      advance
      return []
    | _ => fail

-- The items of a flow list up to its end; a pair among them is a map of one entry.
def flowItems : Nat → Bool → Building (List Node)
  | 0, _ => fail
  | fuel + 1, first => do
    if (← peek) == some .flowListEnd then
      advance
      return []
    else
      if !first then
        if (← peek) == some .flowEntry then advance else fail
      match ← peek with
      | some .key =>
        advance
        let key ←
          if ← nextIsNot [.value, .flowEntry, .flowListEnd] then node fuel .flow
          else pure Node.blank
        let value ←
          match ← peek with
          | some .value => do
            advance
            if ← nextIsNot [.flowEntry, .flowListEnd] then node fuel .flow else pure Node.blank
          | _ => pure Node.blank
        return .map [(key, value)] :: (← flowItems fuel false)
      | some .flowListEnd =>
        advance
        return []
      | _ =>
        let n ← node fuel .flow
        return n :: (← flowItems fuel false)

def flowEntries : Nat → Bool → Building (List (Node × Node))
  | 0, _ => fail
  | fuel + 1, first => do
    if (← peek) == some .flowMapEnd then
      advance
      return []
    else
      if !first then
        if (← peek) == some .flowEntry then advance else fail
      match ← peek with
      | some .key =>
        advance
        let key ←
          if ← nextIsNot [.value, .flowEntry, .flowMapEnd] then node fuel .flow
          else pure Node.blank
        let value ←
          match ← peek with
          | some .value => do
            advance
            if ← nextIsNot [.flowEntry, .flowMapEnd] then node fuel .flow else pure Node.blank
          | _ => pure Node.blank
        return (key, value) :: (← flowEntries fuel false)
      | some .flowMapEnd =>
        advance
        return []
      | _ =>
        let n ← node fuel .flow
        return (n, Node.blank) :: (← flowEntries fuel false)

end

def isDirective : Token → Bool
  | .version _ _ => true
  | .tagShorthand _ _ => true
  | _ => false

def commonShorthands : List (String × String) := [("!", "!"), ("!!", "tag:yaml.org,2002:")]

-- Checks directives: at most one version, of the first major version, and no shorthand twice.
def shorthands? : Bool → List (String × String) → List Token → Option (List (String × String))
  | _, found, [] => some (found ++ commonShorthands)
  | seen, found, .version major minor :: rest =>
    if seen || major != 1 || !(minor == 1 || minor == 2) then none
    else shorthands? true found rest
  | seen, found, .tagShorthand handle lead :: rest =>
    if (found.lookup handle).isSome then none else shorthands? seen ((handle, lead) :: found) rest
  | _, _, _ :: _ => none

structure View where
  targets : List (Nat × Node)
  node : Node

def Build.numbered (b : Build) : List (Nat × Node) :=
  b.owners.filterMap fun (id, owner) => (b.targets.lookup owner).map (id, ·)

def onlyDocument? (shorthands : List (String × String)) (empty : Bool) (tokens : List Token) :
    Option View := do
  let (n, b) ←
    if empty then some (Node.blank, { tokens, shorthands })
    else (node (2 * tokens.length + 4) .block).run { tokens, shorthands }
  if (b.tokens.dropWhile (· == .documentEnd)).isEmpty then return ⟨b.numbered, n⟩ else none

-- The document that a text holds; an empty text holds an empty one, and two are too many.
def read? (s : String) : Option View := do
  let tokens ← tokens? s
  match tokens with
  | [] => return ⟨[], Node.blank⟩
  | first :: _ =>
    if isDirective first || first == .documentStart then
      let shorthands ← shorthands? false [] (tokens.takeWhile isDirective)
      match tokens.dropWhile isDirective with
      | .documentStart :: rest =>
        let empty := rest.head?.all fun t => isDirective t || t == .documentStart || t == .documentEnd
        onlyDocument? shorthands empty rest
      | _ => none
    else onlyDocument? commonShorthands false tokens

namespace View

def follow (v : View) : Node :=
  match v.node with
  | .reference id => (v.targets.lookup id).getD v.node
  | n => n

def with_ (v : View) (n : Node) : View := { v with node := n }

def text? (v : View) : Option String :=
  match v.follow with
  | .scalar _ _ text => some text
  | _ => none

-- A plain scalar, or a literal one tagged as a truth value.
def truth? (v : View) : Option Bool :=
  match v.follow with
  | .scalar tag form text =>
    if form == .plain || (form == .literal && tag == "tag:yaml.org,2002:bool") then bool? text
    else none
  | _ => none

def items? (v : View) : Option (List View) :=
  match v.follow with
  | .list items => some (items.map v.with_)
  | .scalar _ .plain "" => some []
  | _ => none

def entries? (v : View) : Option (List (String × View)) :=
  match v.follow with
  | .map entries =>
    entries.mapM fun (key, value) => (v.with_ key).text?.map (·, v.with_ value)
  | .scalar _ .plain "" => some []
  | _ => none

instance : Readable View where
  text? := text?
  truth? := truth?
  items? := items?
  entries? := entries?
  record? fields v := v.entries? >>= Readable.pickFields fields

end View

end CallAtlas.Yaml
