import CallAtlas.Proofs.Sdk.Packages

namespace CallAtlas.Sdk

open CallAtlas.Text Resolving

structure Lookup where
  convention : Convention
  importPath : String
  function : String
  deriving Repr, DecidableEq

-- Keys of other directories stay as they are, and so do entries that are there.
theorem lookup_insertEndpoints {entries : List (String × Endpoint)}
    (names : ∀ e ∈ entries, Dotless e.1) (dir d : Path) {f : String} (name : Dotless f) (c : Cache) :
    (entries.foldl (fun c e => c.insertEndpoint dir e.1 e.2) c).endpoints.lookup (Cache.key d f) =
      (c.endpoints.lookup (Cache.key d f)).or
        (if d = dir then (entries.find? fun e => e.1 = f).map (·.2) else none) := by
  induction entries generalizing c with
  | nil => simp
  | cons e rest ih =>
    obtain ⟨first, others⟩ := List.forall_mem_cons.mp names
    rw [List.foldl_cons, ih others]
    simp only [Cache.insertEndpoint, Cache.lookup_addNew]
    by_cases same : Cache.key d f = Cache.key dir e.1
    · obtain ⟨rfl, rfl⟩ := Cache.key_inj name first same
      simp
    · rw [if_neg same]
      by_cases here : d = dir
      · have other : e.1 ≠ f := fun eq => same (by rw [here, eq])
        simp [here, other]
      · simp [here]

theorem insertEndpoints_frame (entries : List (String × Endpoint)) (dir : Path) (c : Cache) :
    entries.foldl (fun c e => c.insertEndpoint dir e.1 e.2) c =
      { c with endpoints := (entries.foldl (fun c e => c.insertEndpoint dir e.1 e.2) c).endpoints } := by
  induction entries generalizing c with
  | nil => rfl
  | cons e rest ih =>
    rw [List.foldl_cons, ih]
    rfl

namespace Vendor

variable (v : Vendor)

def dirOf (l : Lookup) : Path := v.packageDir l.importPath

def lookUp (l : Lookup) : Resolving (Option Endpoint) := v.endpoint? l.convention l.importPath l.function

def lookUpAll (ls : List Lookup) : Resolving (List (Option Endpoint)) := ls.mapM v.lookUp

-- What the package's own table says, with nothing remembered.
def direct? (l : Lookup) : Option Endpoint :=
  (answer (l.convention.resolvePackage v.tree (v.dirOf l)) {}).bind (·.get? l.function)

def marking (dir : Path) (s : State) : State :=
  { s with cache := { s.cache with packages := s.cache.packages ++ [dir] } }

def entering (c : Convention) (dir : Path) : Resolving Unit := do
  match ← c.resolvePackage v.tree dir with
  | some table => storeEndpoints dir table
  | none => pure ()

-- The state in which an endpoint of a package is looked up: the package is marked by then.
def entered (c : Convention) (dir : Path) (s : State) : State :=
  if s.cache.packages.any (·.same dir) then s else after (v.entering c dir) (marking dir s)

def counting (s : State) : State := { s with cache := { s.cache with lookups := s.cache.lookups + 1 } }

theorem lookUp_exact (l : Lookup) (s : State) :
    answer (v.lookUp l) s =
        (v.entered l.convention (v.dirOf l) s).cache.endpoints.lookup (Cache.key (v.dirOf l) l.function) ∧
      after (v.lookUp l) s = counting (v.entered l.convention (v.dirOf l) s) := by
  unfold lookUp endpoint? entered Cache.markPackage dirOf
  cases marked : s.cache.packages.any (·.same (v.packageDir l.importPath)) with
  | true =>
    rw [answer_bind, after_bind, answer_get, after_get, Cache.mark_old marked]
    exact ⟨rfl, rfl⟩
  | false =>
    rw [answer_bind, after_bind, answer_get, after_get, Cache.mark_new marked]
    simp only [entering, marking, answer_bind, after_bind, after_set, if_true, Bool.false_eq_true, if_false]
    generalize answer (l.convention.resolvePackage v.tree (v.packageDir l.importPath)) _ = table
    cases table <;> exact ⟨rfl, rfl⟩

-- What entering a package changes. The table is the one that resolving it gives in this state.
structure Entered (c : Convention) (dir : Path) (s t : State) : Prop where
  packages : t.cache.packages = s.cache.packages ++ [dir]
  urls : ∀ p f, (∀ n ∈ Rest.urlFiles, p ≠ dir.join n) → Dotless f → t.cache.url? p f = s.cache.url? p f
  files : ∃ marks : List String, (∀ n ∈ marks, n ∈ Rest.urlFiles) ∧
    t.cache.urlFiles = s.cache.urlFiles ++ marks.map dir.join
  reads : ∃ names : List String, names.Nodup ∧ (∀ n ∈ names, MayRead v.tree dir n) ∧
    t.reads = s.reads ++ names.map dir.join
  endpoints : ∀ d f, Dotless f → t.cache.endpoints.lookup (Cache.key d f) =
    (s.cache.endpoints.lookup (Cache.key d f)).or
      (if d = dir then (answer (c.resolvePackage v.tree dir) (marking dir s)).bind (·.get? f) else none)

theorem entering_enters (c : Convention) (dir : Path) (s : State) :
    v.Entered c dir s (after (v.entering c dir) (marking dir s)) := by
  obtain ⟨marks, names, work, urlNames, distinct, may⟩ := c.resolvePackage_works v.tree dir (marking dir s)
  have kept : (after (c.resolvePackage v.tree dir) (marking dir s)).cache.endpoints = s.cache.endpoints :=
    work.endpoints
  unfold entering
  rw [after_bind]
  cases resolved : answer (c.resolvePackage v.tree dir) (marking dir s) with
  | none =>
    refine ⟨work.packages, work.urls, ⟨marks, urlNames, work.marked⟩, ⟨names, distinct, may, work.read⟩, ?_⟩
    intro d f _
    simp [kept, resolved]
  | some table =>
    have named : ∀ e ∈ table.entries, Dotless e.1 := fun e member =>
      Convention.resolvePackage_names resolved e.1 (List.mem_map_of_mem member)
    simp only [storeEndpoints, after_modify]
    rw [insertEndpoints_frame]
    refine ⟨work.packages, work.urls, ⟨marks, urlNames, work.marked⟩, ⟨names, distinct, may, work.read⟩, ?_⟩
    intro d f name
    dsimp only
    rw [lookup_insertEndpoints named dir d name, kept, resolved]
    rfl

theorem entered_old {c : Convention} {dir : Path} {s : State}
    (old : s.cache.packages.any (·.same dir) = true) : v.entered c dir s = s := if_pos old

theorem entered_new {c : Convention} {dir : Path} {s : State}
    (new : s.cache.packages.any (·.same dir) = false) : v.Entered c dir s (v.entered c dir s) := by
  unfold entered
  rw [new]
  exact v.entering_enters c dir s

end Vendor

end CallAtlas.Sdk
