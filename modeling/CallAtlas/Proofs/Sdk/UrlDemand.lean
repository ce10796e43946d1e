import CallAtlas.Proofs.Sdk.Ensured
import CallAtlas.Proofs.Sdk.Respelling

namespace CallAtlas.Sdk

open CallAtlas.Text Resolving

theorem UrlUse.still_marked {p : Path} {s t : State} (used : UrlUse p s t)
    (marked : s.cache.urlFiles.any (·.same p) = true) :
    t.cache.urlFiles.any (·.same p) = true := by
  rcases used with kept | ⟨new, _⟩
  · rwa [kept.marked, List.append_nil]
  · rw [marked] at new
    cases new

namespace Rest

variable {tree : SourceTree} {p dir dir' : Path} {s t : State}

-- The builders that the requests of some functions name.
def namedBuilders (functions : List Go.Function) : List String :=
  functions.flatMap fun f => ((requests? f.source).getD []).filterMap (·.builder? f.source)

theorem namedBuilders_dotless {functions : List Go.Function} :
    ∀ b ∈ namedBuilders functions, Dotless b := by
  intro b member
  obtain ⟨f, _, member⟩ := List.mem_flatMap.mp member
  obtain ⟨r, request, named⟩ := List.mem_filterMap.mp member
  cases shown : requests? f.source with
  | none =>
    rw [shown] at request
    cases request
  | some requests =>
    rw [shown] at request
    exact builder?_dotless (requests?_sources shown r request) named

theorem namedBuilders_cons (f : Go.Function) (rest : List Go.Function) :
    namedBuilders (f :: rest) =
      ((requests? f.source).getD []).filterMap (·.builder? f.source) ++ namedBuilders rest :=
  List.flatMap_cons

-- The name of the URL file that resolving a package reads if it has not been read.
def urlFileRead? (tree : SourceTree) (dir : Path) : Option String := do
  let request ← requestFiles.find? fun n => tree.isFile (dir.join n)
  let url ← urlFiles.find? fun n => tree.isFile (dir.join n)
  let file ← answer (parseFile tree (dir.join request)) {}
  if (namedBuilders file.functions).isEmpty then none else some url

theorem urlFileRead?_name {n : String} (read : urlFileRead? tree dir = some n) : n ∈ urlFiles := by
  obtain ⟨request, _, rest⟩ := Option.bind_eq_some_iff.mp read
  obtain ⟨url, urlFound, rest⟩ := Option.bind_eq_some_iff.mp rest
  obtain ⟨file, _, rest⟩ := Option.bind_eq_some_iff.mp rest
  split at rest
  · cases rest
  · cases rest
    exact List.mem_of_find?_eq_some urlFound

theorem urlFileRead?_respelled (placed : tree.Placed) (place : dir.same dir' = true) :
    urlFileRead? tree dir' = urlFileRead? tree dir := by
  unfold urlFileRead?
  rw [find?_isFile_respelled placed place requestFile_isName,
    find?_isFile_respelled placed place Vendor.urlFile_isName]
  simp only [Option.bind_eq_bind]
  cases requestFound : requestFiles.find? fun n => tree.isFile (dir.join n) with
  | none => simp only [Option.bind_none]
  | some request =>
    have plain := requestFile_isName request (List.mem_of_find?_eq_some requestFound)
    have same := placed.reads dir dir' request place plain
    simp only [Option.bind_some, parseFile_respelled same {} {}]
    cases answer (parseFile tree (dir.join request)) {} with
    | none => simp only [Option.map_none, Option.bind_none]
    | some file => simp only [Option.map_some, Option.bind_some]

theorem urlOf_marks (builder : String) :
    (after (urlOf tree p builder) s).cache.urlFiles.any (·.same p) = true := by
  rw [(urlOf_exact tree p builder s).2, opened]
  split
  · assumption
  · rw [(readUrlFile_work tree p _).marked]
    simp [Path.same_refl]

theorem lastEndpoint_marks {source : String} {requests : List Request}
    (asked : requests.filterMap (·.builder? source) ≠ []) (found : Option Endpoint) :
    (after (lastEndpoint tree p source requests found) s).cache.urlFiles.any (·.same p) = true := by
  induction requests generalizing found with
  | nil => exact absurd rfl asked
  | cons r rest ih =>
    rw [lastEndpoint]
    cases named : r.builder? source with
    | none =>
      rw [List.filterMap_cons, named] at asked
      exact ih asked found
    | some builder =>
      rw [after_bind]
      have marked : (after (urlOf tree p builder) s).cache.urlFiles.any (·.same p) = true :=
        urlOf_marks builder
      cases answer (urlOf tree p builder) s with
      | none => exact (lastEndpoint_uses tree p source rest found _).still_marked marked
      | some url => exact (lastEndpoint_uses tree p source rest _ _).still_marked marked

theorem directEndpoints_marks {functions : List Go.Function} (asked : namedBuilders functions ≠ [])
    (table : EndpointTable) :
    (after (directEndpoints tree p functions table) s).cache.urlFiles.any (·.same p) = true := by
  induction functions generalizing table s with
  | nil => exact absurd rfl asked
  | cons f rest ih =>
    rw [namedBuilders_cons] at asked
    rw [directEndpoints]
    cases shown : requests? f.source with
    | none =>
      rw [shown] at asked
      exact ih asked table
    | some requests =>
      rw [shown] at asked
      rw [after_bind]
      by_cases here : requests.filterMap (·.builder? f.source) = []
      · have later : namedBuilders rest ≠ [] := by simpa [here] using asked
        cases answer (lastEndpoint tree p f.source requests none) s with
        | none => exact ih later table
        | some e => exact ih later _
      · have marked : (after (lastEndpoint tree p f.source requests none) s).cache.urlFiles.any
            (·.same p) = true := lastEndpoint_marks here none
        cases answer (lastEndpoint tree p f.source requests none) s with
        | none => exact (directEndpoints_uses tree p rest table _).still_marked marked
        | some e => exact (directEndpoints_uses tree p rest _ _).still_marked marked

theorem resolvePackage_reads {n : String} (read : urlFileRead? tree dir = some n)
    (new : s.cache.urlFiles.any (·.same (dir.join n)) = false) :
    (after (resolvePackage tree dir) s).cache.urlFiles = s.cache.urlFiles ++ [dir.join n] := by
  obtain ⟨request, requestFound, rest⟩ := Option.bind_eq_some_iff.mp read
  obtain ⟨url, urlFound, rest⟩ := Option.bind_eq_some_iff.mp rest
  obtain ⟨file, parsed, rest⟩ := Option.bind_eq_some_iff.mp rest
  split at rest
  · cases rest
  · rename_i filled
    cases rest
    have asked : namedBuilders file.functions ≠ [] := by simpa using filled
    rw [answer_parseFile {} tree _ s] at parsed
    unfold resolvePackage
    simp only [firstExisting?_name, requestFound, urlFound, Option.map_some, after_bind, after_pure, parsed,
      after_parseFile]
    have marked : (after (directEndpoints tree (dir.join n) file.functions {})
        { s with reads := s.reads ++ [dir.join request] }).cache.urlFiles.any (·.same (dir.join n)) = true :=
      directEndpoints_marks asked {}
    rcases directEndpoints_uses tree (dir.join n) file.functions {} _ with kept | ⟨_, used⟩
    · rw [kept.marked, List.append_nil, new] at marked
      cases marked
    · exact used.marked

-- The builders are looked up in vain, and without a trace.
def Silent (tree : SourceTree) (p : Path) (s : State) (builders : List String) : Prop :=
  ∀ b ∈ builders, answer (urlOf tree p b) s = none ∧ after (urlOf tree p b) s = s

theorem lastEndpoint_silent {source : String} {requests : List Request}
    (silent : Silent tree p s (requests.filterMap (·.builder? source))) (found : Option Endpoint) :
    answer (lastEndpoint tree p source requests found) s = found ∧
      after (lastEndpoint tree p source requests found) s = s := by
  induction requests with
  | nil => exact ⟨rfl, rfl⟩
  | cons r rest ih =>
    rw [lastEndpoint]
    rw [List.filterMap_cons] at silent
    cases named : r.builder? source with
    | none =>
      rw [named] at silent
      exact ih silent
    | some builder =>
      rw [named] at silent
      obtain ⟨⟨nothing, same⟩, others⟩ := List.forall_mem_cons.mp silent
      rw [answer_bind, after_bind, nothing, same]
      exact ih others

theorem directEndpoints_silent {functions : List Go.Function}
    (silent : Silent tree p s (namedBuilders functions)) (table : EndpointTable) :
    (answer (directEndpoints tree p functions table) s).1 = table := by
  induction functions with
  | nil => rfl
  | cons f rest ih =>
    rw [namedBuilders_cons] at silent
    obtain ⟨here, later⟩ := List.forall_mem_append.mp silent
    rw [directEndpoints]
    cases shown : requests? f.source with
    | none => exact ih later
    | some requests =>
      rw [shown, Option.getD_some] at here
      obtain ⟨nothing, same⟩ := lastEndpoint_silent here none
      rw [answer_bind, nothing, same]
      exact ih later

theorem copyEndpoints_empty (calls : Pattern) (functions : List Go.Function) :
    copyEndpoints calls functions {} = {} := by
  induction functions with
  | nil => rfl
  | cons f rest ih =>
    have nothing : ((calls.findAll f.source).filterMap fun m =>
        ({} : EndpointTable).get? (m.group 0)) = [] := by
      rw [List.filterMap_eq_nil_iff]
      intro _ _
      rfl
    rw [copyEndpoints, nothing]
    exact ih

theorem resolvePackage_silent
    (silent : ∀ n, urlFileRead? tree dir = some n → s.cache.urlFiles.any (·.same (dir.join n)) = true ∧
      ∀ f, Dotless f → s.cache.url? (dir.join n) f = none) (function : String) :
    (answer (resolvePackage tree dir) s).bind (·.get? function) = none := by
  unfold urlFileRead? at silent
  unfold resolvePackage
  simp only [firstExisting?_name]
  cases requestFound : requestFiles.find? fun n => tree.isFile (dir.join n) with
  | none => rfl
  | some request =>
    cases urlFound : urlFiles.find? fun n => tree.isFile (dir.join n) with
    | none => rfl
    | some url =>
      simp only [Option.map_some, answer_bind]
      cases parsed : answer (parseFile tree (dir.join request)) s with
      | none => rfl
      | some file =>
        rw [answer_parseFile s tree _ {}] at parsed
        simp only [requestFound, urlFound, parsed, Option.bind_eq_bind, Option.bind_some] at silent
        have vain : Silent tree (dir.join url) (after (parseFile tree (dir.join request)) s)
            (namedBuilders file.functions) := by
          intro b member
          have filled : (namedBuilders file.functions).isEmpty = false := by
            rw [List.isEmpty_eq_false_iff]
            exact List.ne_nil_of_mem member
          rw [filled] at silent
          obtain ⟨marked, nothing⟩ := silent url rfl
          have same : opened tree (dir.join url) (after (parseFile tree (dir.join request)) s) =
              after (parseFile tree (dir.join request)) s := by
            rw [after_parseFile]
            exact if_pos marked
          rw [(urlOf_exact tree (dir.join url) b _).1, (urlOf_exact tree (dir.join url) b _).2, same,
            after_parseFile]
          exact ⟨nothing b (namedBuilders_dotless b member), rfl⟩
        dsimp only
        rw [answer_bind, answer_pure, directEndpoints_silent vain, copyEndpoints_empty]
        rfl

-- What is stored of a URL file stands under the path that it was marked by.
def UrlsOwned (s : State) : Prop :=
  ∀ p f, Dotless f → (s.cache.url? p f).isSome = true → s.cache.urlFiles.find? (·.same p) = some p

theorem urlsOwned_ofCache : OfCache UrlsOwned := by
  intro s t same owned p f dotless
  rw [← same]
  exact owned p f dotless

theorem urlOf_owned (builder : String) :
    Ensures UrlsOwned (fun u => ∀ url ∈ u, True) (urlOf tree p builder) := by
  intro s owned
  refine ⟨fun _ _ => trivial, ?_⟩
  rw [(urlOf_exact tree p builder s).2, opened]
  split
  · exact owned
  · rename_i new
    have first : s.cache.urlFiles.find? (·.same p) = none := by
      rw [List.find?_eq_none]
      simpa using new
    intro q f dotless found
    have read := readUrlFile_work tree p { s with cache := { s.cache with urlFiles := s.cache.urlFiles ++ [p] } }
    rw [read.marked, List.append_nil]
    dsimp only
    rw [List.find?_append]
    by_cases here : q = p
    · subst here
      simp [first, Path.same_refl]
    · rw [read.urls q f here dotless] at found
      rw [owned q f dotless found]
      rfl

end Rest

theorem Convention.resolvePackage_owned {tree : SourceTree} {dir : Path} {s : State} (c : Convention)
    (owned : Rest.UrlsOwned s) : Rest.UrlsOwned (after (c.resolvePackage tree dir) s) := by
  unfold resolvePackage
  cases c.kind with
  | rest =>
    exact (Rest.resolvePackage_ensures Rest.urlsOwned_ofCache (fun _ _ builder _ => Rest.urlOf_owned builder)
      s owned).2
  | generated => exact Rest.urlsOwned_ofCache s _ Generated.resolvePackage_cache.symm owned

end CallAtlas.Sdk
