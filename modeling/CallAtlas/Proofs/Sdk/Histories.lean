import CallAtlas.Proofs.Sdk.UrlDemand

namespace CallAtlas.Sdk.Vendor

open CallAtlas.Text Resolving

inductive Step where
  | lookUp (l : Lookup)
  | resolve (c : Convention) (dir : Path)
  deriving Repr

def perform (v : Vendor) : Step → State → State
  | .lookUp l, s => after (v.lookUp l) s
  | .resolve c dir, s => after (c.resolvePackage v.tree dir) s

def performAll (v : Vendor) (steps : List Step) : State := steps.foldl (fun s step => v.perform step s) {}

-- The directories of the lookups, as they are spelled.
def askedDirs (v : Vendor) (steps : List Step) : List Path :=
  steps.filterMap fun
    | .lookUp l => some (v.dirOf l)
    | .resolve _ _ => none

-- The directories that were resolved for their own sake by way of their URL files.
def resolvedDirs (steps : List Step) : List Path :=
  steps.filterMap fun
    | .lookUp _ => none
    | .resolve c dir => if c.kind = .rest then some dir else none

variable {v : Vendor} {past : List Step} {s : State} {l : Lookup}

-- What is found in a place is stored under the path that came first.
structure Owned (v : Vendor) (past : List Step) (s : State) : Prop where
  packages : ∀ dir, s.cache.packages.find? (·.same dir) = (v.askedDirs past).find? (·.same dir)
  endpoints : ∀ d f, Dotless f → (s.cache.endpoints.lookup (Cache.key d f)).isSome = true →
    s.cache.packages.find? (·.same d) = some d
  urls : Rest.UrlsOwned s
  files : ∀ p ∈ s.cache.urlFiles, ∃ d ∈ v.askedDirs past ++ resolvedDirs past, ∃ n ∈ Rest.urlFiles,
    p = d.join n
  read : ∀ d, (v.askedDirs past).find? (·.same d) = none → (resolvedDirs past).find? (·.same d) = some d →
    ∀ n, Rest.urlFileRead? v.tree d = some n → s.cache.urlFiles.find? (·.same (d.join n)) = some (d.join n)

theorem owned_start (v : Vendor) : Owned v [] {} :=
  ⟨fun _ => rfl, nofun, nofun, nofun, nofun⟩

theorem Owned.unmarked (owned : Owned v past s) {dir : Path}
    (unasked : (v.askedDirs past).find? (·.same dir) = none)
    (unresolved : (resolvedDirs past).find? (·.same dir) = none) :
    ∀ n ∈ Rest.urlFiles, s.cache.urlFiles.any (·.same (dir.join n)) = false := by
  intro n name
  rw [List.any_eq_false]
  intro p marked same
  obtain ⟨d, touched, m, name', rfl⟩ := owned.files p marked
  have dirs := (Path.join_name_inj (urlFile_isName m name') (urlFile_isName n name) (beq_iff_eq.mp same)).1
  rw [List.find?_eq_none] at unasked unresolved
  rcases List.mem_append.mp touched with asked | resolved
  · exact unasked d asked (beq_iff_eq.mpr dirs)
  · exact unresolved d resolved (beq_iff_eq.mpr dirs)

@[simp]
theorem askedDirs_lookUp (past : List Step) (l : Lookup) :
    v.askedDirs (past ++ [.lookUp l]) = v.askedDirs past ++ [v.dirOf l] := by simp [askedDirs]

@[simp]
theorem askedDirs_resolve (past : List Step) (c : Convention) (dir : Path) :
    v.askedDirs (past ++ [.resolve c dir]) = v.askedDirs past := by simp [askedDirs]

@[simp]
theorem resolvedDirs_lookUp (past : List Step) (l : Lookup) :
    resolvedDirs (past ++ [.lookUp l]) = resolvedDirs past := by simp [resolvedDirs]

theorem resolvedDirs_resolve (past : List Step) (c : Convention) (dir : Path) :
    resolvedDirs (past ++ [.resolve c dir]) =
      resolvedDirs past ++ if c.kind = .rest then [dir] else [] := by
  unfold resolvedDirs
  rw [List.filterMap_append]
  by_cases rest : c.kind = .rest <;> simp [rest]

theorem Owned.of_cache {t : State} (owned : Owned v past s) (same : s.cache = t.cache) : Owned v past t := by
  refine ⟨?_, ?_, Rest.urlsOwned_ofCache s t same owned.urls, ?_, ?_⟩
  · rw [← same]; exact owned.packages
  · rw [← same]; exact owned.endpoints
  · rw [← same]; exact owned.files
  · rw [← same]; exact owned.read

theorem Owned.counting (owned : Owned v past s) : Owned v past (counting s) :=
  ⟨owned.packages, owned.endpoints, owned.urls, owned.files, owned.read⟩

theorem Owned.looked_old (owned : Owned v past s)
    (old : s.cache.packages.any (·.same (v.dirOf l)) = true) : Owned v (past ++ [.lookUp l]) s := by
  refine ⟨?_, owned.endpoints, owned.urls, ?_, ?_⟩
  · intro dir
    rw [owned.packages, askedDirs_lookUp, List.find?_append]
    cases found : (v.askedDirs past).find? (·.same dir) with
    | some d => rfl
    | none =>
      -- A place that was asked for before is found among what was asked for before.
      cases here : (v.dirOf l).same dir with
      | false => simp [here]
      | true =>
        rw [← owned.packages, List.find?_eq_none] at found
        obtain ⟨d, member, same⟩ := List.any_eq_true.mp old
        exact absurd ((Path.same_congr here d).symm.trans same) (found d member)
  · intro p marked
    obtain ⟨d, touched, file⟩ := owned.files p marked
    refine ⟨d, ?_, file⟩
    rw [askedDirs_lookUp, resolvedDirs_lookUp, List.mem_append]
    exact (List.mem_append.mp touched).imp_left (List.mem_append_left _)
  · intro d unasked
    rw [askedDirs_lookUp, List.find?_append, Option.or_eq_none_iff] at unasked
    rw [resolvedDirs_lookUp]
    exact owned.read d unasked.1

theorem find?_grown {found marks : List Path} {p : Path} (first : found.find? (·.same p) = some p) :
    (found ++ marks).find? (·.same p) = some p := by
  rw [List.find?_append, first]
  rfl

theorem entering_owned {c : Convention} {dir : Path} (owned : Rest.UrlsOwned s) :
    Rest.UrlsOwned (after (v.entering c dir) (marking dir s)) := by
  have resolved : Rest.UrlsOwned (after (c.resolvePackage v.tree dir) (marking dir s)) :=
    c.resolvePackage_owned owned
  unfold entering
  rw [after_bind]
  cases answer (c.resolvePackage v.tree dir) (marking dir s) with
  | none => exact resolved
  | some table =>
    simp only [storeEndpoints, after_modify]
    rw [insertEndpoints_frame]
    exact resolved

theorem Owned.looked_new {t : State} (owned : Owned v past s)
    (new : s.cache.packages.any (·.same (v.dirOf l)) = false)
    (entered : v.Entered l.convention (v.dirOf l) s t) (urls : Rest.UrlsOwned t) :
    Owned v (past ++ [.lookUp l]) t := by
  obtain ⟨marks, names, files⟩ := entered.files
  refine ⟨?_, ?_, urls, ?_, ?_⟩
  · intro dir
    rw [entered.packages, askedDirs_lookUp, List.find?_append, List.find?_append, owned.packages]
  · intro d f dotless found
    rw [entered.packages]
    rw [entered.endpoints d f dotless] at found
    cases old : s.cache.endpoints.lookup (Cache.key d f) with
    | some e => exact find?_grown (owned.endpoints d f dotless (by rw [old]; rfl))
    | none =>
      rw [old, Option.none_or] at found
      split at found
      · rename_i here
        subst here
        have first : s.cache.packages.find? (·.same (v.dirOf l)) = none := by
          rw [List.find?_eq_none]
          simpa using new
        simp [List.find?_append, first, Path.same_refl]
      · cases found
  · intro p member
    rw [askedDirs_lookUp, resolvedDirs_lookUp]
    rw [files] at member
    rcases List.mem_append.mp member with old | added
    · obtain ⟨d, touched, file⟩ := owned.files p old
      refine ⟨d, List.mem_append.mpr ?_, file⟩
      exact (List.mem_append.mp touched).imp_left (List.mem_append_left _)
    · obtain ⟨n, name, rfl⟩ := List.mem_map.mp added
      exact ⟨v.dirOf l, by simp, n, names n name, rfl⟩
  · intro d unasked resolved n read
    rw [askedDirs_lookUp, List.find?_append, Option.or_eq_none_iff] at unasked
    rw [resolvedDirs_lookUp] at resolved
    rw [files]
    exact find?_grown (owned.read d unasked.1 resolved n read)

theorem Owned.resolved_rest (owned : Owned v past s) {c : Convention} (rest : c.kind = .rest) (dir : Path) :
    Owned v (past ++ [.resolve c dir]) (after (c.resolvePackage v.tree dir) s) := by
  obtain ⟨marks, _, work, names, _⟩ := c.resolvePackage_works v.tree dir s
  refine ⟨?_, ?_, c.resolvePackage_owned owned.urls, ?_, ?_⟩
  · rw [work.packages, askedDirs_resolve]
    exact owned.packages
  · rw [work.packages, work.endpoints]
    exact owned.endpoints
  · intro p member
    rw [askedDirs_resolve, resolvedDirs_resolve, if_pos rest]
    rw [work.marked] at member
    rcases List.mem_append.mp member with old | added
    · obtain ⟨d, touched, file⟩ := owned.files p old
      refine ⟨d, List.mem_append.mpr ?_, file⟩
      exact (List.mem_append.mp touched).imp_right (List.mem_append_left _)
    · obtain ⟨n, name, rfl⟩ := List.mem_map.mp added
      exact ⟨dir, by simp, n, names n name, rfl⟩
  · intro d unasked resolved n read
    rw [askedDirs_resolve] at unasked
    rw [resolvedDirs_resolve, if_pos rest, List.find?_append] at resolved
    cases before : (resolvedDirs past).find? (·.same d) with
    | some e =>
      rw [before] at resolved
      cases resolved
      rw [work.marked]
      exact find?_grown (owned.read d unasked before n read)
    | none =>
      -- The place is met for the first time, so its URL file is read now.
      rw [before, Option.none_or] at resolved
      obtain rfl : d = dir := List.mem_singleton.mp (List.mem_of_find?_eq_some resolved)
      have new := owned.unmarked unasked before n (Rest.urlFileRead?_name read)
      have first : s.cache.urlFiles.find? (·.same (d.join n)) = none := by
        rw [List.find?_eq_none]
        simpa using new
      unfold Convention.resolvePackage
      rw [rest]
      dsimp only
      rw [Rest.resolvePackage_reads read new, List.find?_append, first]
      simp [Path.same_refl]

theorem Owned.performed (owned : Owned v past s) (step : Step) : Owned v (past ++ [step]) (v.perform step s) := by
  cases step with
  | lookUp l =>
    show Owned v _ (after (v.lookUp l) s)
    rw [(v.lookUp_exact l s).2]
    cases marked : s.cache.packages.any (·.same (v.dirOf l)) with
    | true =>
      rw [v.entered_old marked]
      exact (owned.looked_old marked).counting
    | false =>
      refine Owned.counting (owned.looked_new marked (v.entered_new marked) ?_)
      unfold entered
      rw [marked]
      exact entering_owned owned.urls
  | resolve c dir =>
    cases kind : c.kind with
    | rest => exact owned.resolved_rest kind dir
    | generated =>
      have same : (v.perform (.resolve c dir) s).cache = s.cache := by
        show (after (c.resolvePackage v.tree dir) s).cache = s.cache
        unfold Convention.resolvePackage
        rw [kind]
        exact Generated.resolvePackage_cache
      refine Owned.of_cache (s := s) ?_ same.symm
      have dirs : resolvedDirs (past ++ [.resolve c dir]) = resolvedDirs past := by
        simp [resolvedDirs_resolve, kind]
      refine ⟨?_, owned.endpoints, owned.urls, ?_, ?_⟩
      · rw [askedDirs_resolve]; exact owned.packages
      · rw [askedDirs_resolve, dirs]; exact owned.files
      · rw [askedDirs_resolve, dirs]; exact owned.read

theorem performAll_owned (v : Vendor) (steps : List Step) : Owned v steps (v.performAll steps) := by
  have run : ∀ past s, Owned v past s →
      Owned v (past ++ steps) (steps.foldl (fun s step => v.perform step s) s) := by
    induction steps with
    | nil =>
      intro past s owned
      rwa [List.append_nil]
    | cons step rest ih =>
      intro past s owned
      rw [List.append_cons]
      exact ih _ _ (owned.performed step)
  exact run [] {} (owned_start v)

end CallAtlas.Sdk.Vendor
