import CallAtlas.Proofs.Analysis.Runs
import Mathlib.Data.List.Forall2

namespace CallAtlas

open CallAtlas.Text Sdk Sdk.Resolving

-- One request, whatever service it is attributed to.
structure Call.SameRequest (x y : Call) : Prop where
  url : x.url = y.url
  method : x.method = y.method
  operationId : x.operationId = y.operationId
  sdkPath : x.sdkPath = y.sdkPath
  origin : x.origin = y.origin

abbrev Call.SameRequests : List Call → List Call → Prop := List.Forall₂ Call.SameRequest

namespace Sdk.Resolving

variable {R : α → β → Prop} {S : γ → δ → Prop}

-- Two pieces of work that start from one state leave one state, and their results are related.
structure Alike (R : α → β → Prop) (m : Resolving α) (n : Resolving β) : Prop where
  leaves : ∀ s, after m s = after n s
  gives : ∀ s, R (answer m s) (answer n s)

theorem Alike.refl (m : Resolving α) : Alike Eq m m := ⟨fun _ => rfl, fun _ => rfl⟩

theorem Alike.pure {a : α} {b : β} (related : R a b) : Alike R (Pure.pure a) (Pure.pure b) :=
  ⟨fun _ => rfl, fun _ => related⟩

theorem Alike.bind {m : Resolving α} {n : Resolving β} {f : α → Resolving γ} {g : β → Resolving δ}
    (first : Alike R m n) (second : ∀ a b, R a b → Alike S (f a) (g b)) :
    Alike S (m >>= f) (n >>= g) := by
  have next (s : State) : Alike S (f (answer m s)) (g (answer n s)) := second _ _ (first.gives s)
  refine ⟨?_, ?_⟩
  · intro s
    rw [after_bind, after_bind, ← first.leaves s]
    exact (next s).leaves _
  · intro s
    rw [answer_bind, answer_bind, ← first.leaves s]
    exact (next s).gives _

-- What is traced beside the state may come out differently.
theorem Alike.lift (m : Noted α) (n : Noted β) {f : α → Resolving γ} {g : β → Resolving δ}
    (second : ∀ a b, Alike S (f a) (g b)) :
    Alike S ((liftM m : Resolving α) >>= f) ((liftM n : Resolving β) >>= g) :=
  ⟨(second m.value n.value).leaves, (second m.value n.value).gives⟩

theorem Alike.map {m : Resolving α} {n : Resolving β} {f : α → γ} {g : β → δ} (alike : Alike R m n)
    (kept : ∀ {a b}, R a b → S (f a) (g b)) : Alike S (f <$> m) (g <$> n) :=
  ⟨alike.leaves, fun s => kept (alike.gives s)⟩

theorem Alike.mapM {f : γ → Resolving α} {g : γ → Resolving β} (each : ∀ c, Alike R (f c) (g c))
    (cs : List γ) : Alike (List.Forall₂ R) (cs.mapM f) (cs.mapM g) := by
  induction cs with
  | nil => exact .pure .nil
  | cons c rest ih =>
    rw [List.mapM_cons, List.mapM_cons]
    exact (each c).bind fun _ _ first => ih.bind fun _ _ later => .pure (.cons first later)

end Sdk.Resolving

theorem Call.ofEndpoint_sameRequest (e : Endpoint) (function path : String) (s t : Service) :
    SameRequest (ofEndpoint e function s path) (ofEndpoint e function t path) :=
  ⟨rfl, rfl, rfl, rfl, rfl⟩

theorem Tag.helperRecord_sameRequest (h : HelperCall) (s t : Service) :
    Call.SameRequest (helperRecord h s) (helperRecord h t) :=
  ⟨rfl, rfl, rfl, rfl, rfl⟩

-- The type that is filled in comes from the arguments, not from the service.
theorem Tag.fillType_sameRequest (trailing : String) {x y : Call} (same : x.SameRequest y) :
    (fillType trailing x).SameRequest (fillType trailing y) := by
  unfold fillType
  split
  · exact ⟨by rw [same.url], same.method, same.operationId, same.sdkPath, same.origin⟩
  · exact ⟨same.url, same.method, same.operationId, same.sdkPath, same.origin⟩

namespace Analyzer

variable (a : Analyzer) (index : Catalog.Index) (registry : Catalog.Registry)

-- The analyzer with other catalogs.
def withCatalogs : Analyzer := { a with index, registry }

theorem callOf?_alike (c : Convention) (file : Go.SourceFile) (f : Go.Function) (package : Package)
    (i : Invocation) :
    Alike (fun x y => Call.SameRequests x.toList y.toList) (a.callOf? c file f package i)
      ((a.withCatalogs index registry).callOf? c file f package i) := by
  unfold callOf?
  split
  · exact .pure .nil
  · refine (Alike.refl (a.vendor.endpoint? c package.importPath i.function)).bind ?_
    rintro found _ rfl
    cases found with
    | none => exact .pure .nil
    | some e =>
      dsimp only
      split
      · exact .pure .nil
      · refine .lift _ _ fun s t => ?_
        have same := Call.ofEndpoint_sameRequest e i.function package.importPath s t
        split
        · exact .pure (.cons (Tag.fillType_sameRequest i.trailing same) .nil)
        · exact .pure (.cons same .nil)

theorem helperCall_alike (c : Convention) (file : Go.SourceFile) (f : Go.Function) :
    Alike Call.SameRequests (a.helperCall c file f)
      ((a.withCatalogs index registry).helperCall c file f) := by
  unfold helperCall
  split
  · split
    · exact .pure .nil
    · rename_i h _
      exact .lift _ _ fun s t => .pure (.cons (Tag.helperRecord_sameRequest h s t) .nil)
  · exact .pure .nil

theorem callsAt_alike (c : Convention) (file : Go.SourceFile) (site : Site) :
    Alike Call.SameRequests (a.callsAt c file site)
      ((a.withCatalogs index registry).callsAt c file site) := by
  cases site with
  | invocation f package i => exact (a.callOf?_alike index registry c file f package i).map id
  | function f => exact a.helperCall_alike index registry c file f

-- Imports alone decide for a convention, so both analyzers go through the same sites.
theorem analyze_alike (file : Go.SourceFile) :
    Alike Call.SameRequests (a.analyze file) ((a.withCatalogs index registry).analyze file) := by
  rw [analyze_sites, analyze_sites]
  exact (Alike.mapM (a.callsAt_alike index registry _ file) (a.sites file)).map fun same =>
    List.rel_flatten same

-- From every state, for a file and for a run over files: position by position the calls agree in
-- all but the service, and what is remembered of the packages is the same.
theorem attribution_unseen (s : State) :
    (∀ file, Call.SameRequests (answer (a.analyze file) s)
        (answer ((a.withCatalogs index registry).analyze file) s)) ∧
      (∀ files : List Go.SourceFile,
        List.Forall₂ Call.SameRequests (answer (files.mapM a.analyze) s)
            (answer (files.mapM (a.withCatalogs index registry).analyze) s) ∧
          after (files.mapM a.analyze) s =
            after (files.mapM (a.withCatalogs index registry).analyze) s) := by
  refine ⟨?_, ?_⟩
  · intro file
    exact (a.analyze_alike index registry file).gives s
  · intro files
    have run := Alike.mapM (a.analyze_alike index registry) files
    exact ⟨run.gives s, run.leaves s⟩

end Analyzer

end CallAtlas
