import CallAtlas.Analysis
import CallAtlas.Proofs.Sdk.Resolving
import Mathlib.Data.List.Basic

namespace CallAtlas

open Sdk

namespace Analyzer

inductive Site where
  | invocation (f : Go.Function) (package : Package) (i : Invocation)
  | function (f : Go.Function)

def sitesOf (c : Convention) (packages : List Package) (f : Go.Function) : List Site :=
  packages.flatMap (fun package => (c.invocations f.source package).map (.invocation f package)) ++
    [.function f]

def sites (a : Analyzer) (file : Go.SourceFile) : List Site :=
  file.functions.flatMap (sitesOf (a.conventionOf file) ((a.conventionOf file).packages file.imports))

-- A site of the file: its function is one of the file's, and its invocation stands in it.
def Site.In (c : Convention) (file : Go.SourceFile) : Site → Prop
  | .invocation f package i => f ∈ file.functions ∧ i ∈ c.invocations f.source package
  | .function f => f ∈ file.functions

theorem sites_in (a : Analyzer) (file : Go.SourceFile) :
    ∀ site ∈ a.sites file, site.In (a.conventionOf file) file := by
  intro site member
  obtain ⟨f, inside, member⟩ := List.mem_flatMap.mp member
  rcases List.mem_append.mp member with called | own
  · obtain ⟨package, _, called⟩ := List.mem_flatMap.mp called
    obtain ⟨i, invoked, rfl⟩ := List.mem_map.mp called
    exact ⟨inside, invoked⟩
  · cases List.mem_singleton.mp own
    exact inside

variable (a : Analyzer) (c : Convention) (file : Go.SourceFile)

-- What is gathered from the sites, read function by function and package by package.
theorem flatMap_sites (gather : Site → List β) :
    (a.sites file).flatMap gather = file.functions.flatMap fun f =>
      (((a.conventionOf file).packages file.imports).flatMap fun package =>
        ((a.conventionOf file).invocations f.source package).flatMap fun i =>
          gather (.invocation f package i)) ++
        gather (.function f) := by
  simp only [sites, sitesOf, List.flatMap_assoc, List.flatMap_append, List.flatMap_map, List.flatMap_cons,
    List.flatMap_nil, List.append_nil]

def callsAt : Site → Resolving (List Call)
  | .invocation f package i => Option.toList <$> a.callOf? c file f package i
  | .function f => a.helperCall c file f

def callsOfSites (sites : List Site) : Resolving (List Call) :=
  List.flatten <$> sites.mapM (a.callsAt c file)

theorem callsOfSites_cons (site : Site) (rest : List Site) :
    a.callsOfSites c file (site :: rest) = do
      let calls ← a.callsAt c file site
      return calls ++ (← a.callsOfSites c file rest) := by
  simp only [callsOfSites, List.mapM_cons, map_eq_pure_bind, bind_assoc, pure_bind, List.flatten_cons]

theorem callsOfSites_append (first second : List Site) :
    a.callsOfSites c file (first ++ second) = do
      let calls ← a.callsOfSites c file first
      return calls ++ (← a.callsOfSites c file second) := by
  simp only [callsOfSites, List.mapM_append, map_eq_pure_bind, bind_assoc, pure_bind, List.flatten_append]

theorem callsOfInvocations_sites (f : Go.Function) (package : Package) (is : List Invocation) :
    a.callsOfInvocations c file f package is =
      a.callsOfSites c file (is.map (.invocation f package)) := by
  induction is with
  | nil => rfl
  | cons i rest ih =>
    rw [List.map_cons, callsOfSites_cons, callsOfInvocations, ih]
    simp only [callsAt, map_eq_pure_bind, bind_assoc, pure_bind]

theorem callsOfPackages_sites (f : Go.Function) (packages : List Package) :
    a.callsOfPackages c file f packages = a.callsOfSites c file
      (packages.flatMap fun package => (c.invocations f.source package).map (.invocation f package)) := by
  induction packages with
  | nil => rfl
  | cons package rest ih =>
    rw [List.flatMap_cons, callsOfSites_append, callsOfPackages, callsOfInvocations_sites, ih]

theorem callsOfFunctions_sites (packages : List Package) (functions : List Go.Function) :
    a.callsOfFunctions c file packages functions =
      a.callsOfSites c file (functions.flatMap (sitesOf c packages)) := by
  induction functions with
  | nil => rfl
  | cons f rest ih =>
    rw [List.flatMap_cons, sitesOf, List.append_assoc, callsOfSites_append, List.singleton_append,
      callsOfSites_cons, callsOfFunctions, callsOfPackages_sites, ih]
    simp only [callsAt, bind_assoc, pure_bind, List.append_assoc]

theorem analyze_sites : a.analyze file = a.callsOfSites (a.conventionOf file) file (a.sites file) :=
  a.callsOfFunctions_sites _ file _ file.functions

end Analyzer

end CallAtlas
