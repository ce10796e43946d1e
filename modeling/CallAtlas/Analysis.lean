import CallAtlas.Call.ApiComment
import CallAtlas.Call.Distinct
import CallAtlas.Call.Tag
import CallAtlas.Catalog.Registry
import CallAtlas.Trace

namespace CallAtlas

open CallAtlas.Text CallAtlas.Sdk

structure Analyzer where
  vendor : Vendor
  index : Catalog.Index
  registry : Catalog.Registry
  rest : Convention
  generated : Convention

namespace Analyzer

-- Imports of generated packages decide for that convention.
def conventionOf (a : Analyzer) (file : Go.SourceFile) : Convention :=
  if (a.generated.packages file.imports).isEmpty then a.rest else a.generated

-- The service of the client that a variable holds: unknown if it cannot be traced, and empty if the
-- catalog does not have it.
def service (a : Analyzer) (c : Convention) (file : Go.SourceFile) (receiver : String)
    (f : Go.Function) : Noted Service := do
  match ← Trace.resolve c file receiver f with
  | .error miss =>
    Noted.warn s!"Unresolved client {receiver} in {f.name} (line {f.line}): {miss.message}"
    return Service.unknown
  | .ok binding =>
    match c.category? binding.constructorName a.index with
    | none =>
      Noted.error
        s!"No service category for client {binding.constructorName} held by {binding.receiver}"
      return {}
    | some key =>
      match a.registry.get? key with
      | some s => return s
      | none =>
        Noted.error s!"Cannot find service catalog of {key}"
        return {}

def callOf? (a : Analyzer) (c : Convention) (file : Go.SourceFile) (f : Go.Function)
    (package : Package) (i : Invocation) : Resolving (Option Call) := do
  if startsWith i.function "Extract" then return none
  match ← a.vendor.endpoint? c package.importPath i.function with
  | none => return none
  | some e =>
    if e.url == "" then return none
    let s ← (a.service c file i.receiver f : Noted Service)
    let call := Call.ofEndpoint e i.function s package.importPath
    if c.kind = .rest && package.localName == Tag.packageAlias then
      return some (Tag.fillType i.trailing call)
    else return some call

def callsOfInvocations (a : Analyzer) (c : Convention) (file : Go.SourceFile) (f : Go.Function)
    (package : Package) : List Invocation → Resolving (List Call)
  | [] => return []
  | i :: rest => do
    let call ← a.callOf? c file f package i
    return call.toList ++ (← a.callsOfInvocations c file f package rest)

def callsOfPackages (a : Analyzer) (c : Convention) (file : Go.SourceFile) (f : Go.Function) :
    List Package → Resolving (List Call)
  | [] => return []
  | package :: rest => do
    let calls ← a.callsOfInvocations c file f package (c.invocations f.source package)
    return calls ++ (← a.callsOfPackages c file f rest)

def helperCall (a : Analyzer) (c : Convention) (file : Go.SourceFile) (f : Go.Function) :
    Resolving (List Call) := do
  if c.kind = .rest then
    match Tag.helperCall? f.source with
    | none => return []
    | some h =>
      let s ← (a.service c file h.receiver f : Noted Service)
      return [Tag.helperRecord h s]
  else return []

def callsOfFunctions (a : Analyzer) (c : Convention) (file : Go.SourceFile)
    (packages : List Package) : List Go.Function → Resolving (List Call)
  | [] => return []
  | f :: rest => do
    let calls ← a.callsOfPackages c file f packages
    let helper ← a.helperCall c file f
    return calls ++ helper ++ (← a.callsOfFunctions c file packages rest)

def analyze (a : Analyzer) (file : Go.SourceFile) : Resolving (List Call) :=
  let c := a.conventionOf file
  a.callsOfFunctions c file (c.packages file.imports) file.functions

def resourceCalls (a : Analyzer) (file : Go.SourceFile) (comments : Bool) :
    Resolving (Except ApiComment.Conflict (List Call)) := do
  let calls ← a.analyze file
  if comments then
    match ← (ApiComment.calls file : Noted _) with
    | .ok more => return .ok (Call.distinct (calls ++ more))
    | .error conflict => return .error conflict
  else return .ok (Call.distinct calls)

end Analyzer

end CallAtlas
