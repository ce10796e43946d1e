import CallAtlas.Text.Basic

namespace CallAtlas

open CallAtlas.Text

inductive Usage where
  | help
  | version
  | noCommand
  | unknownCommand
  | unknownArgument
  | badValue
  | unexpectedValue
  | repeated
  | missingValue
  deriving Repr, DecidableEq

namespace Command

inductive ValueKind where
  | any
  | nonempty
  | oneOf (texts : List String)
  deriving Repr, DecidableEq

def ValueKind.accepts : ValueKind → String → Bool
  | .any, _ => true
  | .nonempty, s => s != ""
  | .oneOf texts, s => texts.contains s

inductive OptionKind where
  | flag
  | single (kind : ValueKind)
  | list (kind : ValueKind)
  deriving Repr, DecidableEq

structure Positional where
  name : String
  kind : ValueKind
  required : Bool
  deriving Repr, DecidableEq

structure Parameters where
  options : List (String × OptionKind) := []
  positionals : List Positional := []
  deriving Repr

inductive Menu where
  | leaf (parameters : Parameters)
  | branch (showsVersion : Bool) (children : List (String × Menu))

-- The names and values that a command was given, in order. A flag has the empty value.
abbrev Given := List (String × String)

inductive Word where
  | escape
  | long (name : String) (value : Option String)
  | short (letters : List Char)
  | plain (text : String)
  deriving Repr, DecidableEq

def Word.ofText (s : String) : Word :=
  match s.toList with
  | ['-', '-'] => .escape
  | '-' :: '-' :: rest =>
    match splitOnce? '=' (String.ofList rest) with
    | some (name, value) => .long name (some value)
    | none => .long (String.ofList rest) none
  | '-' :: c :: rest => .short (c :: rest)
  | _ => .plain s

def answer {α : Type} (u : Usage) : Option String → Except Usage α
  | none => .error u
  | some _ => .error .unexpectedValue

-- A parameter whose value has not been looked at: an option that may still wait for it, or a value
-- by position.
inductive Pending where
  | waiting (name : String) (kind : OptionKind)
  | holding (name : String) (kind : OptionKind) (value : String)
  deriving Repr, DecidableEq

structure Reading where
  given : Given := []
  pending : Option Pending := none
  open_ : List Positional := []
  deriving Repr

namespace Reading

def isGiven (r : Reading) (name : String) : Bool := (r.given.lookup name).isSome

-- Enters a value. An option that is no list is given once.
def enter (r : Reading) (name : String) (kind : OptionKind) (value : String) :
    Except Usage Reading :=
  let entered : Except Usage Reading := .ok { r with given := r.given ++ [(name, value)] }
  match kind with
  | .flag => if r.isGiven name then .error .repeated else entered
  | .single k =>
    if r.isGiven name then .error .repeated
    else if k.accepts value then entered
    else .error .badValue
  | .list k => if k.accepts value then entered else .error .badValue

def settle (r : Reading) : Except Usage Reading :=
  match r.pending with
  | none => .ok r
  | some (.waiting _ _) => .error .badValue
  | some (.holding name kind value) => { r with pending := none }.enter name kind value

def position (r : Reading) (value : String) : Except Usage Reading :=
  match r.open_ with
  | [] => .error .unknownArgument
  | p :: rest => do
    let r ← r.settle
    return { r with pending := some (.holding p.name (.single p.kind) value), open_ := rest }

def option (p : Parameters) (r : Reading) (name : String) (value : Option String) :
    Except Usage Reading :=
  match p.options.lookup name with
  | none => .error .unknownArgument
  | some .flag =>
    if value.isSome then .error .unexpectedValue
    else do (← r.settle).enter name .flag ""
  | some kind => do
    match value with
    | some v => (← r.settle).enter name kind v
    | none => return { ← r.settle with pending := some (.waiting name kind) }

def word (p : Parameters) (r : Reading) : Word → Except Usage Reading
  | .escape => .ok r
  | .long name value =>
    if name == "help" then
      match value with
      | some _ => .error .unexpectedValue
      | none => do
        let _ ← r.settle
        .error .help
    else r.option p name value
  | .short letters =>
    if letters.head? == some 'h' then do
      let _ ← r.settle
      .error .help
    else .error .unknownArgument
  | .plain text =>
    match r.pending with
    | some (.waiting name kind) =>
      .ok { r with pending := some (.holding name kind text) }
    | _ => r.position text

def words (p : Parameters) (r : Reading) : List String → Except Usage Reading
  | [] => .ok r
  | text :: rest =>
    match Word.ofText text with
    | .escape => rest.foldlM position r
    | w => do words p (← r.word p w) rest

def finish (r : Reading) : Except Usage Given := do
  let r ← r.settle
  if r.open_.any (·.required) then .error .missingValue else .ok r.given

end Reading

def Parameters.read (p : Parameters) (words : List String) : Except Usage Given := do
  let r ← ({ open_ := p.positionals } : Reading).words p words
  r.finish

namespace Menu

def helpName : String := "help"

def child? (children : List (String × Menu)) (name : String) : Option Menu := children.lookup name

def helpOn : List String → Menu → Usage
  | [], _ => .help
  | _ :: _, .leaf _ => .unknownCommand
  | name :: rest, .branch _ children =>
    match child? children name with
    | some m => helpOn rest m
    | none => if name == helpName && rest.isEmpty then .help else .unknownCommand

def afterEscape (children : List (String × Menu)) : List String → Usage
  | [] => .noCommand
  | name :: _ =>
    if name == helpName || (child? children name).isSome then .unknownArgument
    else .unknownCommand

def read : List String → Menu → Except Usage (List String × Given)
  | words, .leaf p => do
    let given ← p.read words
    return ([], given)
  | [], .branch _ _ => .error .noCommand
  | text :: rest, .branch showsVersion children =>
    match child? children text with
    | some m => do
      let (path, given) ← read rest m
      return (text :: path, given)
    | none =>
      if text == helpName then .error (helpOn rest (.branch showsVersion children))
      else
        match Word.ofText text with
        | .escape => .error (afterEscape children rest)
        | .long name value =>
          if name == "help" then answer .help value
          else if showsVersion && name == "version" then answer .version value
          else .error .unknownArgument
        | .short letters =>
          if letters.head? == some 'h' then .error .help
          else if showsVersion && letters.head? == some 'V' then .error .version
          else .error .unknownArgument
        | .plain _ => .error .unknownCommand

end Menu

end Command

end CallAtlas
