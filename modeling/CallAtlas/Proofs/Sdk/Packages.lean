import CallAtlas.Proofs.Sdk.UrlFiles
import CallAtlas.Sdk.Resolver

namespace CallAtlas.Sdk

open CallAtlas.Text Resolving

def Named (table : EndpointTable) : Prop := ∀ n ∈ table.keys, Dotless n

theorem named_empty : Named {} := nofun

theorem Named.insert {table : EndpointTable} (named : Named table) {n : String} (name : Dotless n)
    (e : Endpoint) : Named (table.insert n e) := by
  intro k member
  rcases SortedMap.mem_keys_alterEntries.mp member with rfl | old
  · exact name
  · exact named k old

namespace Rest

theorem verbCall_builder {closing : String} {m : Match} (matched : (verbCall closing).Matched m) :
    Dotless (m.group 1) :=
  .of_word (@Pattern.group_within isWord
    [word ".", .opens, .oneOf (verbs.map String.toList), .closes, word "("] [.many isWord]
    [word closing] _ (by simp [Pattern.Within]) matched)

theorem pagerCall_builder {closing : String} {m : Match} (matched : (pagerCall closing).Matched m) :
    Dotless (m.group 0) :=
  .of_word (@Pattern.group_within isWord
    [word "NewPager(", .many isWord, word ",", .many isBlank] [.many isWord] [word closing] _
    (by simp [Pattern.Within]) matched)

theorem variableBuilder?_dotless {name source builder : String}
    (found : variableBuilder? name source = some builder) : Dotless builder := by
  unfold variableBuilder? at found
  dsimp only at found
  split at found
  · rename_i m matched
    split at found
    · cases found
    · cases found
      exact .of_word (@Pattern.group_within isWord
        [.edge, word name, .many isBlank, word ":=", .many isBlank] [.many isWord] [] _
        (by simp [Pattern.Within]) (Pattern.find?_matched matched))
  · cases found

-- A request that names its builder names it by a word.
def WordSource : UrlSource → Prop
  | .builder name => Dotless name
  | .variable _ => True

theorem requests?_sources {source : String} {requests : List Request}
    (shown : requests? source = some requests) : ∀ r ∈ requests, WordSource r.source := by
  obtain ⟨⟨pattern, read⟩, shape, given⟩ := List.exists_of_findSome?_eq_some shown
  intro r member
  obtain ⟨m, matched, made⟩ : ∃ m, pattern.Matched m ∧ read m = some r := by
    dsimp only at given
    split at given
    · cases given
    · cases given
      obtain ⟨m, found, made⟩ := List.mem_filterMap.mp member
      exact ⟨m, Pattern.mem_findAll_matched found, made⟩
  simp only [shapes, List.mem_cons, Prod.mk.injEq, List.not_mem_nil, or_false] at shape
  rcases shape with ⟨rfl, rfl⟩ | ⟨rfl, rfl⟩ | ⟨rfl, rfl⟩ | ⟨rfl, rfl⟩
  · obtain ⟨method, _, rfl⟩ := Option.map_eq_some_iff.mp made
    exact verbCall_builder matched
  · obtain ⟨method, _, rfl⟩ := Option.map_eq_some_iff.mp made
    exact trivial
  · cases made
    exact pagerCall_builder matched
  · cases made
    exact trivial

theorem builder?_dotless {r : Request} {source builder : String} (word : WordSource r.source)
    (named : r.builder? source = some builder) : Dotless builder := by
  unfold Request.builder? at named
  split at named
  · rename_i name given
    cases named
    rwa [given] at word
  · exact variableBuilder?_dotless named

theorem lastEndpoint_parallel {tree : SourceTree} {p q : Path} (fixed : ∀ f, fixedUrl? p f = fixedUrl? q f)
    (same : tree.read? p = tree.read? q) {source : String} {requests : List Request}
    (words : ∀ r ∈ requests, WordSource r.source) (found : Option Endpoint) :
    Parallel p q (lastEndpoint tree p source requests found) (lastEndpoint tree q source requests found) := by
  induction requests generalizing found with
  | nil => exact .pure found
  | cons r rest ih =>
    obtain ⟨word, others⟩ := List.forall_mem_cons.mp words
    have later := ih others
    simp only [lastEndpoint]
    cases named : r.builder? source with
    | none => exact later found
    | some builder =>
      refine (urlOf_parallel fixed same (builder?_dotless word named)).bind fun s => ?_
      cases answer (urlOf tree p builder) s with
      | none => exact later found
      | some url => exact later _

theorem lastEndpoint_uses (tree : SourceTree) (p : Path) (source : String) (requests : List Request)
    (found : Option Endpoint) : Uses p (lastEndpoint tree p source requests found) := by
  induction requests generalizing found with
  | nil => exact Uses.pure p found
  | cons r rest ih =>
    rw [lastEndpoint]
    cases r.builder? source with
    | none => exact ih found
    | some builder =>
      refine (urlOf_uses tree p builder).bind fun url => ?_
      cases url with
      | none => exact ih found
      | some url => exact ih _

theorem directEndpoints_parallel {tree : SourceTree} {p q : Path} (fixed : ∀ f, fixedUrl? p f = fixedUrl? q f)
    (same : tree.read? p = tree.read? q) (functions : List Go.Function) (table : EndpointTable) :
    Parallel p q (directEndpoints tree p functions table) (directEndpoints tree q functions table) := by
  induction functions generalizing table with
  | nil => exact .pure (table, [])
  | cons f rest ih =>
    simp only [directEndpoints]
    cases shown : requests? f.source with
    | none => exact (ih table).bind fun _ => .pure _
    | some requests =>
      refine (lastEndpoint_parallel fixed same (requests?_sources shown) none).bind fun s => ?_
      cases answer (lastEndpoint tree p f.source requests none) s with
      | none => exact ih table
      | some e => exact ih _

theorem directEndpoints_steady (tree : SourceTree) (p : Path) (functions : List Go.Function)
    (table : EndpointTable) : Steady p (directEndpoints tree p functions table) :=
  steady_iff.mpr (directEndpoints_parallel (fun _ => rfl) rfl functions table)

theorem directEndpoints_uses (tree : SourceTree) (p : Path) (functions : List Go.Function)
    (table : EndpointTable) : Uses p (directEndpoints tree p functions table) := by
  induction functions generalizing table with
  | nil => exact Uses.pure p (table, [])
  | cons f rest ih =>
    rw [directEndpoints]
    cases requests? f.source with
    | none => exact (ih table).bind fun _ => Uses.pure p _
    | some requests =>
      refine (lastEndpoint_uses tree p f.source requests none).bind fun e => ?_
      cases e with
      | none => exact ih table
      | some e => exact ih _

theorem directEndpoints_names {tree : SourceTree} {p : Path} {functions : List Go.Function}
    {table : EndpointTable} (names : ∀ f ∈ functions, Dotless f.name) (named : Named table)
    (s : State) :
    Named (answer (directEndpoints tree p functions table) s).1 ∧
      ∀ f ∈ (answer (directEndpoints tree p functions table) s).2, Dotless f.name := by
  induction functions generalizing table s with
  | nil => exact ⟨named, nofun⟩
  | cons f rest ih =>
    obtain ⟨first, others⟩ := List.forall_mem_cons.mp names
    rw [directEndpoints]
    cases requests? f.source with
    | none =>
      obtain ⟨direct, left⟩ := ih others named s
      exact ⟨direct, List.forall_mem_cons.mpr ⟨first, left⟩⟩
    | some requests =>
      rw [answer_bind]
      cases answer (lastEndpoint tree p f.source requests none) s with
      | none => exact ih others named _
      | some e => exact ih others (named.insert first e) _

theorem copyEndpoints_names {calls : Pattern} {functions : List Go.Function} {table : EndpointTable}
    (names : ∀ f ∈ functions, Dotless f.name) (named : Named table) :
    Named (copyEndpoints calls functions table) := by
  induction functions generalizing table with
  | nil => exact named
  | cons f rest ih =>
    obtain ⟨first, others⟩ := List.forall_mem_cons.mp names
    simp only [copyEndpoints]
    split
    · exact ih others (named.insert first _)
    · exact ih others named

theorem firstExisting?_join {tree : SourceTree} {dir p : Path} {names : List String}
    (found : firstExisting? tree dir names = some p) : ∃ n ∈ names, p = dir.join n := by
  obtain ⟨n, member, rfl⟩ := List.mem_map.mp (List.mem_of_find?_eq_some found)
  exact ⟨n, member, rfl⟩

end Rest

-- Endpoints are not stored yet. `marks` and `names` are the URL files marked and the files read, by
-- their names in the directory.
structure PackageWork (dir : Path) (marks names : List String) (s t : State) : Prop where
  packages : t.cache.packages = s.cache.packages
  endpoints : t.cache.endpoints = s.cache.endpoints
  urls : ∀ p f, (∀ n ∈ Rest.urlFiles, p ≠ dir.join n) → Dotless f → t.cache.url? p f = s.cache.url? p f
  marked : t.cache.urlFiles = s.cache.urlFiles ++ marks.map dir.join
  read : t.reads = s.reads ++ names.map dir.join

theorem PackageWork.refl (dir : Path) (s : State) : PackageWork dir [] [] s s :=
  ⟨rfl, rfl, fun _ _ _ _ => rfl, (List.append_nil _).symm, (List.append_nil _).symm⟩

theorem PackageWork.trans (first : PackageWork dir marks names s t)
    (second : PackageWork dir marks' names' t u) :
    PackageWork dir (marks ++ marks') (names ++ names') s u where
  packages := second.packages.trans first.packages
  endpoints := second.endpoints.trans first.endpoints
  urls p f other dotless := (second.urls p f other dotless).trans (first.urls p f other dotless)
  marked := by rw [second.marked, first.marked, List.map_append, List.append_assoc]
  read := by rw [second.read, first.read, List.map_append, List.append_assoc]

theorem PackageWork.of_parseFile (tree : SourceTree) (dir : Path) (n : String) (s : State) :
    PackageWork dir [] [n] s (after (parseFile tree (dir.join n)) s) := by
  rw [after_parseFile]
  exact ⟨rfl, rfl, fun _ _ _ _ => rfl, (List.append_nil _).symm, rfl⟩

theorem PackageWork.of_urlUse {dir : Path} {n : String} {s t : State} (member : n ∈ Rest.urlFiles)
    (used : UrlUse (dir.join n) s t) :
    PackageWork dir [] [] s t ∨ PackageWork dir [n] [n] s t := by
  rcases used with work | ⟨_, work⟩
  · exact .inl ⟨work.packages, work.endpoints, fun p f other => work.urls p f (other n member),
      work.marked, work.read⟩
  · exact .inr ⟨work.packages, work.endpoints, fun p f other => work.urls p f (other n member),
      work.marked, work.read⟩

-- The files of a directory that may be read: those that have a fixed name and those that are listed.
def MayRead (tree : SourceTree) (dir : Path) (n : String) : Prop :=
  endsWith n ".go" = true ∧ (n ∈ Rest.requestFiles ∨ n ∈ Rest.urlFiles ∨ n ∈ tree.list dir)

-- Some files are read, each once, and the URL file is marked if it is read.
def Works (tree : SourceTree) (dir : Path) (m : Resolving α) : Prop :=
  ∀ s, ∃ marks names, PackageWork dir marks names s (after m s) ∧ (∀ n ∈ marks, n ∈ Rest.urlFiles) ∧
    names.Nodup ∧ ∀ n ∈ names, MayRead tree dir n

theorem Works.pure (tree : SourceTree) (dir : Path) (a : α) :
    Works tree dir (Pure.pure a : Resolving α) :=
  fun s => ⟨[], [], .refl dir s, nofun, .nil, nofun⟩

namespace Rest

theorem fixed_names : ∀ n ∈ requestFiles ++ urlFiles, endsWith n ".go" = true := by decide

theorem requestFile_not_url : ∀ n ∈ requestFiles, n ∉ urlFiles := by decide

theorem resolvePackage_works (tree : SourceTree) (dir : Path) :
    Works tree dir (resolvePackage tree dir) := by
  unfold resolvePackage
  cases requestFound : firstExisting? tree dir requestFiles with
  | none => exact Works.pure tree dir none
  | some requestPath =>
    cases urlFound : firstExisting? tree dir urlFiles with
    | none => exact Works.pure tree dir none
    | some urlPath =>
      obtain ⟨request, requestName, rfl⟩ := firstExisting?_join requestFound
      obtain ⟨url, urlName, rfl⟩ := firstExisting?_join urlFound
      have requestMay : MayRead tree dir request :=
        ⟨fixed_names request (List.mem_append_left _ requestName), .inl requestName⟩
      have urlMay : MayRead tree dir url :=
        ⟨fixed_names url (List.mem_append_right _ urlName), .inr (.inl urlName)⟩
      have other : request ≠ url := fun same => requestFile_not_url request requestName (same ▸ urlName)
      intro s
      have read := PackageWork.of_parseFile tree dir request s
      simp only [after_bind]
      cases answer (parseFile tree (dir.join request)) s with
      | none => exact ⟨[], [request], read, nofun, by simp, by simpa using requestMay⟩
      | some file =>
        rcases PackageWork.of_urlUse urlName (directEndpoints_uses tree (dir.join url) file.functions {}
          (after (parseFile tree (dir.join request)) s)) with further | further
        · exact ⟨[], [request], read.trans further, nofun, by simp, by simpa using requestMay⟩
        · refine ⟨[url], [request, url], read.trans further, by simpa using urlName, ?_, ?_⟩
          · simpa using other
          · simpa using ⟨requestMay, urlMay⟩

theorem resolvePackage_steady {tree : SourceTree} {dir : Path} {s t : State}
    (alike : ∀ n ∈ urlFiles, Alike (dir.join n) s t) :
    answer (resolvePackage tree dir) s = answer (resolvePackage tree dir) t := by
  unfold resolvePackage
  cases firstExisting? tree dir requestFiles with
  | none => rfl
  | some requestPath =>
    cases urlFound : firstExisting? tree dir urlFiles with
    | none => rfl
    | some urlPath =>
      obtain ⟨url, urlName, rfl⟩ := firstExisting?_join urlFound
      suffices steady : Steady (dir.join url) _ from
        (steady s t (alike url urlName)).1
      refine (Steady.parseFile tree requestPath).bind fun u => ?_
      cases answer (parseFile tree requestPath) u with
      | none => exact Steady.pure none
      | some file =>
        exact (directEndpoints_steady tree (dir.join url) file.functions {}).bind fun _ => Steady.pure _

theorem resolvePackage_names {tree : SourceTree} {dir : Path} {s : State} {table : EndpointTable}
    (resolved : answer (resolvePackage tree dir) s = some table) : Named table := by
  unfold resolvePackage at resolved
  split at resolved
  · rename_i requestPath urlPath _ _
    rw [answer_bind] at resolved
    cases parsed : answer (parseFile tree requestPath) s with
    | none => rw [parsed] at resolved; cases resolved
    | some file =>
      rw [parsed] at resolved
      have names := parseFile_names parsed
      obtain ⟨direct, left⟩ := @directEndpoints_names tree urlPath file.functions {} names named_empty
        (after (parseFile tree requestPath) s)
      cases resolved
      exact copyEndpoints_names left direct
  · cases resolved

end Rest

namespace Generated

theorem clientAndMeta?_names {tree : SourceTree} {dir clientPath metaPath : Path}
    (found : clientAndMeta? tree dir = some (clientPath, metaPath)) :
    ∃ client described, clientPath = dir.join client ∧ metaPath = dir.join described ∧
      client ∈ tree.list dir ∧ described ∈ tree.list dir ∧
      endsWith client "_client.go" = true ∧ endsWith described "_meta.go" = true := by
  unfold clientAndMeta? at found
  dsimp only at found
  split at found
  · rename_i client described clientFound metaFound
    cases found
    refine ⟨client, described, rfl, rfl, ?_, ?_, ?_, ?_⟩
    · exact List.mem_reverse.mp (List.mem_of_find?_eq_some clientFound)
    · exact List.mem_reverse.mp (List.mem_of_find?_eq_some metaFound)
    · simpa using List.find?_some clientFound
    · simpa using List.find?_some metaFound
  · cases found

-- What the generator named first in an operation describes.
def requested? (requests : SortedMap String Endpoint) (f : Go.Function) : Option Endpoint :=
  ((generatorPattern.find? f.source).map (·.group 0)).bind requests.get?

-- Entering operations looks at no state and leaves it as it is; the path is named in notices only.
theorem operations_exact (metaPath : Path) (requests : SortedMap String Endpoint) (functions : List Go.Function)
    (table : EndpointTable) (s : State) :
    answer (operations metaPath requests functions table) s =
        (functions.filterMap fun f => (requested? requests f).map (f.name, ·)).foldl
          (fun m e => m.insert e.1 e.2) table ∧
      after (operations metaPath requests functions table) s = s := by
  induction functions generalizing table with
  | nil => exact ⟨rfl, rfl⟩
  | cons f rest ih =>
    rw [operations, List.filterMap_cons, requested?]
    cases generatorPattern.find? f.source with
    | none => exact ih table
    | some m =>
      simp only [Option.map_some, Option.bind_some]
      cases requests.get? (m.group 0) with
      | none => exact ih table
      | some e => exact ih _

theorem operations_names {metaPath : Path} {requests : SortedMap String Endpoint}
    {functions : List Go.Function} (names : ∀ f ∈ functions, Dotless f.name) (s : State) :
    Named (answer (operations metaPath requests functions {}) s) := by
  rw [(operations_exact ..).1]
  refine List.foldlRecOn _ _ named_empty fun table named e member => ?_
  obtain ⟨f, inside, made⟩ := List.mem_filterMap.mp member
  obtain ⟨_, _, rfl⟩ := Option.map_eq_some_iff.mp made
  exact named.insert (names f inside) _

theorem endsWith_go {n tail : String} (ends : endsWith n tail = true)
    (go : ".go".toList <:+ tail.toList) : endsWith n ".go" = true :=
  List.isSuffixOf_iff_suffix.mpr (go.trans (List.isSuffixOf_iff_suffix.mp ends))

-- No name has both ends, so the two files are two.
theorem client_not_meta {n : String} (client : endsWith n "_client.go" = true)
    (described : endsWith n "_meta.go" = true) : False := by
  have both := List.suffix_or_suffix_of_suffix (List.isSuffixOf_iff_suffix.mp client)
    (List.isSuffixOf_iff_suffix.mp described)
  revert both
  decide

theorem resolvePackage_works (tree : SourceTree) (dir : Path) :
    Works tree dir (resolvePackage tree dir) := by
  unfold resolvePackage
  cases found : clientAndMeta? tree dir with
  | none => exact Works.pure tree dir none
  | some paths =>
    obtain ⟨clientPath, metaPath⟩ := paths
    obtain ⟨client, described, rfl, rfl, clientIn, metaIn, clientEnd, metaEnd⟩ :=
      clientAndMeta?_names found
    have clientMay : MayRead tree dir client :=
      ⟨endsWith_go clientEnd (by decide), .inr (.inr clientIn)⟩
    have metaMay : MayRead tree dir described :=
      ⟨endsWith_go metaEnd (by decide), .inr (.inr metaIn)⟩
    have other : described ≠ client := fun same => client_not_meta clientEnd (same ▸ metaEnd)
    intro s
    have first := PackageWork.of_parseFile tree dir described s
    have second := PackageWork.of_parseFile tree dir client (after (parseFile tree (dir.join described)) s)
    dsimp only
    rw [after_bind]
    cases answer (parseFile tree (dir.join described)) s with
    | none => exact ⟨[], [described], first, nofun, by simp, by simpa using metaMay⟩
    | some descriptions =>
      refine ⟨[], [described, client], ?_, nofun, by simpa using other, by simpa using ⟨metaMay, clientMay⟩⟩
      dsimp only
      rw [after_bind]
      cases answer (parseFile tree (dir.join client)) (after (parseFile tree (dir.join described)) s) with
      | none => exact first.trans second
      | some file =>
        dsimp only
        rw [after_bind, after_pure, (operations_exact (dir.join described) _ _ _ _).2]
        exact first.trans second

theorem resolvePackage_answer (tree : SourceTree) (dir : Path) (s t : State) :
    answer (resolvePackage tree dir) s = answer (resolvePackage tree dir) t := by
  unfold resolvePackage
  cases clientAndMeta? tree dir with
  | none => rfl
  | some paths =>
    obtain ⟨clientPath, metaPath⟩ := paths
    dsimp only
    rw [answer_bind, answer_bind, answer_parseFile s tree metaPath t]
    cases answer (parseFile tree metaPath) t with
    | none => rfl
    | some described =>
      dsimp only
      rw [answer_bind, answer_bind, answer_parseFile _ tree clientPath (after (parseFile tree metaPath) t)]
      cases answer (parseFile tree clientPath) (after (parseFile tree metaPath) t) with
      | none => rfl
      | some client =>
        dsimp only
        rw [answer_bind, answer_bind, answer_pure, answer_pure]
        exact congrArg some ((operations_exact ..).1.trans (operations_exact ..).1.symm)

theorem resolvePackage_names {tree : SourceTree} {dir : Path} {s : State} {table : EndpointTable}
    (resolved : answer (resolvePackage tree dir) s = some table) : Named table := by
  unfold resolvePackage at resolved
  split at resolved
  · cases resolved
  · rename_i clientPath metaPath _
    rw [answer_bind] at resolved
    cases metaParsed : answer (parseFile tree metaPath) s with
    | none => rw [metaParsed] at resolved; cases resolved
    | some described =>
      rw [metaParsed, answer_bind] at resolved
      cases parsed : answer (parseFile tree clientPath) (after (parseFile tree metaPath) s) with
      | none => rw [parsed] at resolved; cases resolved
      | some client =>
        rw [parsed] at resolved
        cases resolved
        exact operations_names (parseFile_names parsed) _

end Generated

namespace Convention

theorem resolvePackage_works (c : Convention) (tree : SourceTree) (dir : Path) :
    Works tree dir (c.resolvePackage tree dir) := by
  unfold resolvePackage
  cases c.kind with
  | rest => exact Rest.resolvePackage_works tree dir
  | generated => exact Generated.resolvePackage_works tree dir

theorem resolvePackage_steady (c : Convention) {tree : SourceTree} {dir : Path} {s t : State}
    (alike : ∀ n ∈ Rest.urlFiles, Alike (dir.join n) s t) :
    answer (c.resolvePackage tree dir) s = answer (c.resolvePackage tree dir) t := by
  unfold resolvePackage
  cases c.kind with
  | rest => exact Rest.resolvePackage_steady alike
  | generated => exact Generated.resolvePackage_answer tree dir s t

theorem resolvePackage_names {c : Convention} {tree : SourceTree} {dir : Path} {s : State}
    {table : EndpointTable} (resolved : answer (c.resolvePackage tree dir) s = some table) :
    Named table := by
  unfold resolvePackage at resolved
  split at resolved
  · exact Rest.resolvePackage_names resolved
  · exact Generated.resolvePackage_names resolved

end Convention

end CallAtlas.Sdk
