import CallAtlas.Proofs.Sdk.Histories

namespace CallAtlas.Sdk.Vendor

open CallAtlas.Text Resolving

variable {v : Vendor} {past : List Step} {s : State} {l : Lookup}

-- Which spellings of a place what is stored of it stands under: that of the first lookup or, if it has
-- been resolved for its own sake only, those with the same paths of URL files.
def holder? (v : Vendor) (past : List Step) (kind : Kind) (dir : Path) : Option (Path → Bool) :=
  match (v.askedDirs past).find? (·.same dir) with
  | some d => some (· == d)
  | none =>
    if kind = .rest then
      ((resolvedDirs past).find? (·.same dir)).map fun e d => d.join "" == e.join ""
    else none

theorem holder?_place {d d' : Path} (place : d.same d' = true) (kind : Kind) :
    v.holder? past kind d = v.holder? past kind d' := by
  unfold holder?
  rw [Path.find?_place place, Path.find?_place place]

theorem holder?_some {kind : Kind} {dir : Path} {holds : Path → Bool} (held : v.holder? past kind dir = some holds) :
    (∃ d, (v.askedDirs past).find? (·.same dir) = some d ∧ holds = (· == d)) ∨
      (v.askedDirs past).find? (·.same dir) = none ∧ kind = .rest ∧
        ∃ e, (resolvedDirs past).find? (·.same dir) = some e ∧ holds = fun d => d.join "" == e.join "" := by
  unfold holder? at held
  cases asked : (v.askedDirs past).find? (·.same dir) with
  | some d =>
    rw [asked] at held
    cases held
    exact .inl ⟨d, rfl, rfl⟩
  | none =>
    rw [asked] at held
    dsimp only at held
    split at held
    · rename_i rest
      obtain ⟨e, resolved, rfl⟩ := Option.map_eq_some_iff.mp held
      exact .inr ⟨rfl, rest, e, resolved, rfl⟩
    · cases held

theorem holder?_none {kind : Kind} {dir : Path} (unheld : v.holder? past kind dir = none) :
    (v.askedDirs past).find? (·.same dir) = none ∧
      (kind = .rest → (resolvedDirs past).find? (·.same dir) = none) := by
  unfold holder? at unheld
  cases asked : (v.askedDirs past).find? (·.same dir) with
  | some d =>
    rw [asked] at unheld
    cases unheld
  | none =>
    rw [asked] at unheld
    refine ⟨rfl, fun rest => ?_⟩
    dsimp only at unheld
    rwa [if_pos rest, Option.map_eq_none_iff] at unheld

-- Nothing is stored under a spelling that is not the first of its place.
theorem Owned.endpoint_unstored (owned : Owned v past s) {dir : Path} {f : String} (name : Dotless f)
    (other : (v.askedDirs past).find? (·.same dir) ≠ some dir) :
    s.cache.endpoints.lookup (Cache.key dir f) = none := by
  rw [← owned.packages] at other
  exact Option.not_isSome_iff_eq_none.mp fun stored => other (owned.endpoints dir f name stored)

theorem Owned.url_unstored (owned : Owned v past s) {file : Path} {f : String} (name : Dotless f)
    (other : s.cache.urlFiles.find? (·.same file) ≠ some file) : s.cache.url? file f = none :=
  Option.not_isSome_iff_eq_none.mp fun stored => other (owned.urls file f name stored)

-- The answer of a place that has not been asked for is that of its table as it is resolved now.
theorem Owned.new_answer (owned : Owned v past s) (unasked : (v.askedDirs past).find? (·.same (v.dirOf l)) = none)
    (name : Dotless l.function) :
    answer (v.lookUp l) s =
      (answer (l.convention.resolvePackage v.tree (v.dirOf l)) (marking (v.dirOf l) s)).bind
        (·.get? l.function) := by
  have nothing := owned.endpoint_unstored name (by rw [unasked]; nofun)
  rw [← owned.packages] at unasked
  have new : s.cache.packages.any (·.same (v.dirOf l)) = false := by
    rw [List.any_eq_false]
    exact List.find?_eq_none.mp unasked
  rw [(v.lookUp_exact l s).1, (v.entered_new new).endpoints _ _ name, nothing, Option.none_or, if_pos rfl]

theorem Owned.old_answer (owned : Owned v past s) {d : Path}
    (asked : (v.askedDirs past).find? (·.same (v.dirOf l)) = some d) :
    answer (v.lookUp l) s = s.cache.endpoints.lookup (Cache.key (v.dirOf l) l.function) := by
  rw [← owned.packages] at asked
  have old : s.cache.packages.any (·.same (v.dirOf l)) = true :=
    List.any_eq_true.mpr ⟨d, List.mem_of_find?_eq_some asked, Path.find?_same asked⟩
  rw [(v.lookUp_exact l s).1, v.entered_old old]

theorem Owned.held_alone (owned : Owned v past s) (placed : v.tree.Placed) (name : Dotless l.function)
    {holds : Path → Bool} (held : v.holder? past l.convention.kind (v.dirOf l) = some holds)
    (other : holds (v.dirOf l) = false) : answer (v.lookUp l) s = none := by
  rcases holder?_some held with ⟨d, asked, rfl⟩ | ⟨asked, rest, e, resolved, rfl⟩
  · rw [owned.old_answer asked]
    refine owned.endpoint_unstored name fun stored => ?_
    cases asked.symm.trans stored
    simp at other
  · rw [owned.new_answer asked name]
    unfold Convention.resolvePackage
    rw [rest]
    refine Rest.resolvePackage_silent ?_ l.function
    intro n read
    have place : e.same (v.dirOf l) = true := Path.find?_same resolved
    have plain := urlFile_isName n (Rest.urlFileRead?_name read)
    have file : (e.join n).same ((v.dirOf l).join n) = true := by
      unfold Path.same at place ⊢
      rw [Path.components_join_name e plain, Path.components_join_name (v.dirOf l) plain,
        beq_iff_eq.mp place, beq_self_eq_true]
    rw [Rest.urlFileRead?_respelled placed place] at read
    rw [← Path.find?_place place] at asked resolved
    have stored := owned.read e asked resolved n read
    rw [Path.find?_place file] at stored
    refine ⟨List.any_eq_true.mpr ⟨_, List.mem_of_find?_eq_some stored, file⟩, ?_⟩
    intro f dotless
    refine owned.url_unstored dotless fun here => ?_
    rw [stored, Option.some.injEq, Path.join_eq_join plain] at here
    simp [here] at other

theorem Owned.held_alike (owned : Owned v past s) (placed : v.tree.Placed) (lists : v.tree.ListsNames)
    {l' : Lookup} (place : (v.dirOf l).same (v.dirOf l') = true)
    (kinds : l.convention.kind = l'.convention.kind) (functions : l.function = l'.function)
    (name : Dotless l.function) {holds : Path → Bool}
    (held : v.holder? past l.convention.kind (v.dirOf l) = some holds) (here : holds (v.dirOf l) = true)
    (here' : holds (v.dirOf l') = true) : answer (v.lookUp l) s = answer (v.lookUp l') s := by
  rcases holder?_some held with ⟨d, asked, rfl⟩ | ⟨asked, _, e, _, rfl⟩
  · have dirs : v.dirOf l = v.dirOf l' := (beq_iff_eq.mp here).trans (beq_iff_eq.mp here').symm
    rw [owned.old_answer asked]
    rw [dirs] at asked
    rw [owned.old_answer asked, dirs, functions]
  · have slashed : (v.dirOf l).join "" = (v.dirOf l').join "" :=
      (beq_iff_eq.mp here).trans (beq_iff_eq.mp here').symm
    have files : ∀ n ∈ Rest.urlFiles, (v.dirOf l).join n = (v.dirOf l').join n := fun n file =>
      (Path.join_eq_join (urlFile_isName n file)).mpr slashed
    rw [owned.new_answer asked name]
    rw [Path.find?_place place] at asked
    rw [owned.new_answer asked (functions ▸ name), functions]
    refine congrArg (Option.bind · _)
      (Convention.resolvePackage_respelled kinds placed lists place ?_ fun _ => ?_)
    · intro n file f
      rw [files n file]
    · intro n file
      rw [files n file]
      exact ⟨rfl, fun _ _ => rfl⟩

theorem Owned.unheld_alike (owned : Owned v past s) (placed : v.tree.Placed) (lists : v.tree.ListsNames)
    {l' : Lookup} (place : (v.dirOf l).same (v.dirOf l') = true)
    (kinds : l.convention.kind = l'.convention.kind) (functions : l.function = l'.function)
    (name : Dotless l.function) (unheld : v.holder? past l.convention.kind (v.dirOf l) = none)
    (fixed : SameFixed (v.dirOf l) (v.dirOf l')) : answer (v.lookUp l) s = answer (v.lookUp l') s := by
  obtain ⟨asked, unresolved⟩ := holder?_none unheld
  rw [owned.new_answer asked name]
  have asked' := asked
  rw [Path.find?_place place] at asked'
  rw [owned.new_answer asked' (functions ▸ name), functions]
  refine congrArg (Option.bind · _)
    (Convention.resolvePackage_respelled kinds placed lists place fixed fun rest => ?_)
  have resolved := unresolved rest
  have unmarked := owned.unmarked asked resolved
  rw [Path.find?_place place] at resolved
  have unmarked' := owned.unmarked asked' resolved
  have nothing : ∀ p, s.cache.urlFiles.any (·.same p) = false → ∀ f, Dotless f → s.cache.url? p f = none := by
    intro p new f dotless
    refine owned.url_unstored dotless fun stored => ?_
    exact List.any_eq_false.mp new p (List.mem_of_find?_eq_some stored) (Path.same_refl p)
  intro n file
  refine ⟨(unmarked n file).trans (unmarked' n file).symm, ?_⟩
  intro f dotless
  exact (nothing _ (unmarked n file) f dotless).trans (nothing _ (unmarked' n file) f dotless).symm

-- Over every history: if something is stored of the place, two spellings answer alike exactly if what
-- is stored stands under both or neither, or if no spelling has an answer. If nothing is stored, they
-- answer alike, provided that the same URLs are fixed for both.
theorem spelling_exact (placed : v.tree.Placed) (lists : v.tree.ListsNames) (steps : List Step)
    {l l' : Lookup} (place : (v.dirOf l).same (v.dirOf l') = true)
    (kinds : l.convention.kind = l'.convention.kind) (functions : l.function = l'.function)
    (name : Dotless l.function) :
    (∀ holds, v.holder? steps l.convention.kind (v.dirOf l) = some holds →
      (answer (v.lookUp l) (v.performAll steps) = answer (v.lookUp l') (v.performAll steps) ↔
        holds (v.dirOf l) = holds (v.dirOf l') ∨
          ∀ k : Lookup, (v.dirOf k).same (v.dirOf l) = true → k.convention.kind = l.convention.kind →
            k.function = l.function → answer (v.lookUp k) (v.performAll steps) = none)) ∧
      (v.holder? steps l.convention.kind (v.dirOf l) = none → SameFixed (v.dirOf l) (v.dirOf l') →
        answer (v.lookUp l) (v.performAll steps) = answer (v.lookUp l') (v.performAll steps)) := by
  have owned := performAll_owned v steps
  refine ⟨?_, fun unheld fixed => owned.unheld_alike placed lists place kinds functions name unheld fixed⟩
  intro holds held
  have held' : v.holder? steps l'.convention.kind (v.dirOf l') = some holds := by
    rw [← kinds, ← holder?_place place, held]
  refine ⟨?_, ?_⟩
  · intro agree
    by_cases alike : holds (v.dirOf l) = holds (v.dirOf l')
    · exact .inl alike
    -- What is stored stands under one of the two, and the other has no answer.
    refine .inr fun k near kind function => ?_
    have held_k : v.holder? steps k.convention.kind (v.dirOf k) = some holds := by
      rw [kind, holder?_place near, held]
    have name_k : Dotless k.function := function ▸ name
    cases here : holds (v.dirOf k) with
    | false => exact owned.held_alone placed name_k held_k here
    | true =>
      cases first : holds (v.dirOf l) with
      | true =>
        have other : holds (v.dirOf l') = false := by
          cases second : holds (v.dirOf l') with
          | false => rfl
          | true => exact absurd (first.trans second.symm) alike
        rw [owned.held_alike placed lists near kind function name_k held_k here first, agree]
        exact owned.held_alone placed (functions ▸ name) held' other
      | false =>
        have second : holds (v.dirOf l') = true := by
          cases second : holds (v.dirOf l') with
          | true => rfl
          | false => exact absurd (first.trans second.symm) alike
        have near' : (v.dirOf k).same (v.dirOf l') = true := (Path.same_congr place (v.dirOf k)).symm.trans near
        rw [owned.held_alike placed lists near' (kind.trans kinds) (function.trans functions) name_k held_k here
          second, ← agree]
        exact owned.held_alone placed name held first
  · rintro (alike | nothing)
    · cases first : holds (v.dirOf l) with
      | true =>
        exact owned.held_alike placed lists place kinds functions name held first (alike ▸ first)
      | false =>
        rw [owned.held_alone placed name held first,
          owned.held_alone placed (functions ▸ name) held' (alike ▸ first)]
    · rw [nothing l (Path.same_refl _) rfl rfl,
        nothing l' ((Path.same_congr place _).trans (Path.same_refl _)) kinds.symm functions.symm]

def ports : Vendor where
  root := ⟨"v"⟩
  tree := .ofFiles
    [(⟨"v/sdk/port/requests.go"⟩, .text "func Get()\x7bc.Get(u())\x7d"),
     (⟨"v/sdk/port/urls.go"⟩, .text "func u()\x7bx.ServiceURL(\"ports\")\x7d")]

def plainly : Lookup := ⟨.of .rest none, "sdk/port", "Get"⟩

def doubled : Lookup := ⟨.of .rest none, "sdk//port", "Get"⟩

theorem ports_place : (ports.dirOf plainly).same (ports.dirOf doubled) = true := by decide +kernel

theorem fixedUrl?_none {p : Path}
    (other : ∀ x ∈ fixedUrls, endsWith (replace p.text "\\" "/") x.fileEnd = false) (f : String) :
    fixedUrl? p f = none := by
  unfold fixedUrl?
  rw [Option.map_eq_none_iff, List.find?_eq_none]
  intro x member
  simp [other x member]

theorem ports_fixed : SameFixed (ports.dirOf plainly) (ports.dirOf doubled) := by
  have none : ∀ dir ∈ [ports.dirOf plainly, ports.dirOf doubled], ∀ n ∈ Rest.urlFiles,
      ∀ x ∈ fixedUrls, endsWith (replace (dir.join n).text "\\" "/") x.fileEnd = false := by decide +kernel
  intro n file f
  rw [fixedUrl?_none (none _ (by simp) n file), fixedUrl?_none (none _ (by simp) n file)]

theorem spelling_exact_ports :
    answer (ports.lookUp plainly) (ports.performAll []) = answer (ports.lookUp doubled) (ports.performAll []) ∧
      (answer (ports.lookUp plainly) (ports.performAll [.lookUp plainly]) =
          answer (ports.lookUp doubled) (ports.performAll [.lookUp plainly]) ↔
        (ports.dirOf plainly == ports.dirOf plainly) = (ports.dirOf doubled == ports.dirOf plainly) ∨
          ∀ k : Lookup, (ports.dirOf k).same (ports.dirOf plainly) = true →
            k.convention.kind = plainly.convention.kind → k.function = plainly.function →
              answer (ports.lookUp k) (ports.performAll [.lookUp plainly]) = none) := by
  have placed : ports.tree.Placed := SourceTree.ofFiles_placed _
  have lists : ports.tree.ListsNames := ofFiles_listsNames _
  have name : Dotless plainly.function := by
    unfold Dotless
    decide
  refine ⟨?_, ?_⟩
  · exact (spelling_exact placed lists [] ports_place rfl rfl name).2 rfl ports_fixed
  · refine (spelling_exact placed lists [.lookUp plainly] ports_place rfl rfl name).1
      (· == ports.dirOf plainly) ?_
    have first : (ports.askedDirs [.lookUp plainly]).find? (·.same (ports.dirOf plainly)) =
        some (ports.dirOf plainly) := by
      simp [askedDirs, Path.same_refl]
    unfold holder?
    rw [first]

theorem doubled_slash_unanswered :
    ports.dirOf plainly = ⟨"v/sdk/port"⟩ ∧ ports.dirOf doubled = ⟨"v/sdk//port"⟩ ∧
      (ports.dirOf plainly).same (ports.dirOf doubled) = true ∧
      answer (ports.lookUp plainly) (ports.performAll [.lookUp plainly]) = some ⟨"ports", .get⟩ ∧
      answer (ports.lookUp doubled) (ports.performAll [.lookUp plainly]) = none := by
  decide +kernel

end CallAtlas.Sdk.Vendor
