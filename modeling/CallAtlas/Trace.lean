import CallAtlas.Sdk.Exception
import CallAtlas.Sdk.Resolver

namespace CallAtlas.Trace

open CallAtlas.Text CallAtlas.Sdk

structure Binding where
  receiver : String
  constructorName : String
  deriving Repr, DecidableEq

inductive Miss where
  | noCaller (receiver function : String)
  | complexArgument (caller argument : String)
  | undeclared (receiver function : String)
  | cycle (function : String)
  deriving Repr, DecidableEq

def Miss.message : Miss → String
  | .noCaller receiver function =>
    s!"{receiver} is a parameter of {function} but no caller passes it"
  | .complexArgument caller argument =>
    s!"{caller} passes `{argument}`, which is not a plain variable"
  | .undeclared receiver function => s!"no declaration of {receiver} in {function}"
  | .cycle function => s!"call chain returns to {function}"

-- A client that a helper chooses counts only where none is declared.
def declared? (c : Convention) (receiver : String) (f : Go.Function) : Option Binding :=
  ((c.declaredClient? receiver f.source).or (chosenClient? receiver f.source)).map
    (⟨receiver, ·⟩)

def callPattern (function : String) : Pattern :=
  [.edge, word function, word "(", .opens, .many Pattern.notNewline, .closes, word ")"]

def argument? (callee : String) (position : Nat) (caller : Go.Function) : Option String :=
  match (callPattern callee).find? caller.source with
  | none => none
  | some m =>
    ((split ',' (m.group 0))[position - 1]?).map fun arg =>
      trimMatches (· == ')') (trimMatches (· == ' ') arg)

-- The first function of another name that calls this one, and the argument it passes.
def caller? (functions : List Go.Function) (callee : String) (position : Nat) :
    Option (Go.Function × String) :=
  functions.findSome? fun g =>
    if g.name == callee then none else (argument? callee position g).map (g, ·)

-- Parameters come before declarations with the REST client. In generated packages they come after,
-- and do not count in methods.
def parameter? (c : Convention) (receiver : String) (f : Go.Function) : Option ParameterClient :=
  match c.kind with
  | .rest => c.parameterClient? receiver f.params
  | .generated => if f.isMethod then none else c.parameterClient? receiver f.params

inductive Step where
  | done (result : Except Miss Binding)
  | goTo (receiver : String) (f : Go.Function)

def stepToCaller (functions : List Go.Function) (receiver : String) (f : Go.Function)
    (position : Nat) : Noted Step :=
  match caller? functions f.name position with
  | none => pure (.done (.error (.noCaller receiver f.name)))
  | some (g, argument) =>
    if containsChar argument '(' then do
      Noted.warn s!"Unable to parse the argument {argument} passed by {g.name}"
      return .done (.error (.complexArgument g.name argument))
    else pure (.goTo argument g)

def declaredOrMiss (c : Convention) (receiver : String) (f : Go.Function) : Step :=
  match declared? c receiver f with
  | some b => .done (.ok b)
  | none => .done (.error (.undeclared receiver f.name))

def step (c : Convention) (functions : List Go.Function) (receiver : String) (f : Go.Function) :
    Noted Step :=
  match c.kind with
  | .rest =>
    match parameter? c receiver f with
    | some (.typed name) => pure (.done (.ok ⟨receiver, name⟩))
    | some (.viaCaller position) => stepToCaller functions receiver f position
    | none => pure (declaredOrMiss c receiver f)
  | .generated =>
    match declared? c receiver f with
    | some b => pure (.done (.ok b))
    | none =>
      match parameter? c receiver f with
      | some (.typed name) => pure (.done (.ok ⟨receiver, name⟩))
      | some (.viaCaller position) => stepToCaller functions receiver f position
      | none => pure (.done (.error (.undeclared receiver f.name)))

-- Follows steps through functions of names not yet visited. Every step visits one more name of the
-- file, so its number of functions bounds the steps.
def follow (c : Convention) (functions : List Go.Function) :
    Nat → List String → String → Go.Function → Noted (Except Miss Binding)
  | 0, _, _, f => pure (.error (.cycle f.name))
  | n + 1, visited, receiver, f =>
    if visited.contains f.name then pure (.error (.cycle f.name))
    else do
      match ← step c functions receiver f with
      | .done result => return result
      | .goTo argument g => follow c functions n (f.name :: visited) argument g

def resolve (c : Convention) (file : Go.SourceFile) (receiver : String) (f : Go.Function) :
    Noted (Except Miss Binding) :=
  follow c file.functions (file.functions.length + 2) [] receiver f

end CallAtlas.Trace
