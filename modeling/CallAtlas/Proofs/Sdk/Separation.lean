import CallAtlas.Proofs.Sdk.Memory
import CallAtlas.Proofs.Sdk.Reads

namespace CallAtlas

open CallAtlas.Text Sdk.Resolving

-- A predicate on the places that paths name: the spelling does not count.
def Path.OfPlaces (here : Path → Bool) : Prop := ∀ p q : Path, p.same q = true → here p = here q

theorem Path.same_ofPlaces (place : Path) : OfPlaces (·.same place) := by
  intro p q same
  have parts : p.components = q.components := beq_iff_eq.mp same
  simp only [Path.same, parts]

-- Files of two directories are two files if only one of the directories counts.
theorem Path.OfPlaces.apart {here : Path → Bool} (places : OfPlaces here) {d d' : Path} {n m : String}
    (out : here d = false) (inside : here d' = true) (plain : IsName n) (plain' : IsName m) :
    (d.join n).components ≠ (d'.join m).components := by
  intro same
  have dirs := (join_name_inj plain plain' same).1
  rw [places d d' (beq_iff_eq.mpr dirs), inside] at out
  cases out

namespace Sdk

-- The trees have the same files directly in a directory.
structure SourceTree.AgreeIn (dir : Path) (t u : SourceTree) : Prop where
  lists : t.list dir = u.list dir
  files : ∀ n, Path.IsName n → t.isFile (dir.join n) = u.isFile (dir.join n)
  reads : ∀ n, Path.IsName n → t.read? (dir.join n) = u.read? (dir.join n)

-- The trees have the same Go files directly in a directory.
structure SourceTree.SameSources (dir : Path) (t u : SourceTree) : Prop where
  lists : (t.list dir).filter (endsWith · ".go") = (u.list dir).filter (endsWith · ".go")
  files : ∀ n, Path.IsName n → endsWith n ".go" = true → t.isFile (dir.join n) = u.isFile (dir.join n)
  reads : ∀ n, Path.IsName n → endsWith n ".go" = true → t.read? (dir.join n) = u.read? (dir.join n)

theorem SourceTree.AgreeIn.sources {dir : Path} {t u : SourceTree} (agree : AgreeIn dir t u) :
    SameSources dir t u :=
  ⟨congrArg (List.filter _) agree.lists, fun n plain _ => agree.files n plain,
    fun n plain _ => agree.reads n plain⟩

-- The trees differ in files directly in one directory at most: `here` says which paths name it.
structure SourceTree.DifferIn (here : Path → Bool) (t u : SourceTree) : Prop where
  places : Path.OfPlaces here
  agree : ∀ dir, here dir = false → AgreeIn dir t u

section
variable {t u : SourceTree} {dir p : Path}

theorem Resolving.parseFile_congr (same : t.read? p = u.read? p) : parseFile t p = parseFile u p := by
  unfold parseFile
  rw [same]

namespace Rest

theorem urlOf_congr (same : t.read? p = u.read? p) (builder : String) :
    urlOf t p builder = urlOf u p builder := by
  unfold urlOf readUrlFile
  rw [parseFile_congr same]

theorem lastEndpoint_congr (same : t.read? p = u.read? p) (source : String) (requests : List Request)
    (found : Option Endpoint) :
    lastEndpoint t p source requests found = lastEndpoint u p source requests found := by
  induction requests generalizing found with
  | nil => rfl
  | cons r rest ih => simp only [lastEndpoint, urlOf_congr same, ih]

theorem directEndpoints_congr (same : t.read? p = u.read? p) (functions : List Go.Function)
    (table : EndpointTable) : directEndpoints t p functions table = directEndpoints u p functions table := by
  induction functions generalizing table with
  | nil => rfl
  | cons f rest ih => simp only [directEndpoints, lastEndpoint_congr same, ih]

theorem requestFile_isName : ∀ n ∈ requestFiles, Path.IsName n := by
  intro n member
  simp only [requestFiles, List.mem_cons, List.not_mem_nil, or_false] at member
  rcases member with rfl | rfl <;> exact ⟨by decide, by decide, by decide, by decide⟩

theorem requestFile_go : ∀ n ∈ requestFiles, endsWith n ".go" = true := by decide

theorem urlFile_go : ∀ n ∈ urlFiles, endsWith n ".go" = true := by decide

theorem firstExisting?_congr (same : SourceTree.SameSources dir t u) {names : List String}
    (plain : ∀ n ∈ names, Path.IsName n) (sources : ∀ n ∈ names, endsWith n ".go" = true) :
    firstExisting? t dir names = firstExisting? u dir names := by
  induction names with
  | nil => rfl
  | cons n rest ih =>
    obtain ⟨first, others⟩ := List.forall_mem_cons.mp plain
    obtain ⟨source, more⟩ := List.forall_mem_cons.mp sources
    have later := ih others more
    unfold firstExisting? at later ⊢
    simp only [List.map_cons, List.find?_cons, same.files n first source, later]

theorem resolvePackage_congr (same : SourceTree.SameSources dir t u) :
    resolvePackage t dir = resolvePackage u dir := by
  have requests := firstExisting?_congr same requestFile_isName requestFile_go
  have urls := firstExisting?_congr same Vendor.urlFile_isName urlFile_go
  unfold resolvePackage
  rw [requests, urls]
  cases requestFound : firstExisting? u dir requestFiles with
  | none => rfl
  | some requestPath =>
    cases urlFound : firstExisting? u dir urlFiles with
    | none => rfl
    | some urlPath =>
      obtain ⟨n, name, rfl⟩ := firstExisting?_join requestFound
      obtain ⟨m, name', rfl⟩ := firstExisting?_join urlFound
      dsimp only
      rw [parseFile_congr (same.reads n (requestFile_isName n name) (requestFile_go n name))]
      simp only [directEndpoints_congr (same.reads m (Vendor.urlFile_isName m name') (urlFile_go m name'))]

end Rest

-- Looking for the files of a generated package passes over files that are not Go.
theorem Generated.clientAndMeta?_congr (same : SourceTree.SameSources dir t u) :
    clientAndMeta? t dir = clientAndMeta? u dir := by
  have found : ∀ tail : String, ".go".toList <:+ tail.toList →
      (t.list dir).reverse.find? (endsWith · tail) = (u.list dir).reverse.find? (endsWith · tail) := by
    intro tail go
    have chosen : ∀ n, decide (endsWith n ".go" = true ∧ endsWith n tail = true) = endsWith n tail := by
      intro n
      rw [Bool.decide_and, Bool.decide_eq_true, Bool.decide_eq_true, Bool.and_eq_right_iff_imp]
      exact fun ends => endsWith_go ends go
    have narrowed : ∀ names : List String, names.reverse.find? (endsWith · tail) =
        (names.filter (endsWith · ".go")).reverse.find? (endsWith · tail) := by
      intro names
      simp only [← List.filter_reverse, List.find?_filter, chosen]
    rw [narrowed, same.lists, ← narrowed]
  unfold clientAndMeta?
  simp only [found "_client.go" (by decide), found "_meta.go" (by decide)]

theorem Generated.resolvePackage_congr (same : SourceTree.SameSources dir t u) (lists : t.ListsNames) :
    resolvePackage t dir = resolvePackage u dir := by
  unfold resolvePackage
  rw [← clientAndMeta?_congr same]
  cases found : clientAndMeta? t dir with
  | none => rfl
  | some paths =>
    obtain ⟨clientPath, metaPath⟩ := paths
    obtain ⟨client, described, rfl, rfl, clientIn, metaIn, clientEnd, metaEnd⟩ :=
      clientAndMeta?_names found
    have clientGo : endsWith client ".go" = true := endsWith_go clientEnd (by decide)
    have metaGo : endsWith described ".go" = true := endsWith_go metaEnd (by decide)
    have clientName : Path.IsName client := mayRead_isName lists ⟨clientGo, .inr (.inr clientIn)⟩
    have metaName : Path.IsName described := mayRead_isName lists ⟨metaGo, .inr (.inr metaIn)⟩
    dsimp only
    rw [parseFile_congr (same.reads client clientName clientGo),
      parseFile_congr (same.reads described metaName metaGo)]

theorem Convention.resolvePackage_congr (c : Convention) (same : SourceTree.SameSources dir t u)
    (lists : t.ListsNames) : c.resolvePackage t dir = c.resolvePackage u dir := by
  unfold resolvePackage
  cases c.kind with
  | rest => exact Rest.resolvePackage_congr same
  | generated => exact Generated.resolvePackage_congr same lists

end

-- Nothing is changed but what is remembered of one URL file.
structure Touches (p : Path) (s t : State) : Prop where
  urls : ∀ q f, q ≠ p → Dotless f → t.cache.url? q f = s.cache.url? q f
  marked : ∀ q, p.same q = false →
    t.cache.urlFiles.any (·.same q) = s.cache.urlFiles.any (·.same q)

theorem UrlUse.touches {p : Path} {s t : State} (used : UrlUse p s t) : Touches p s t := by
  rcases used with kept | ⟨_, read⟩
  · exact ⟨kept.urls, fun q _ => by rw [kept.marked, List.append_nil]⟩
  · refine ⟨read.urls, ?_⟩
    intro q apart
    rw [read.marked, List.any_append]
    simp [apart]

-- Of a file that was touched in both, or in neither, the states remember the same.
theorem Touches.alike {p q : Path} {s t s' t' : State} (left : Touches p s s') (right : Touches p t t')
    (here : Alike p s' t') (before : Alike q s t) : Alike q s' t' := by
  refine ⟨?_, ?_⟩
  · cases same : p.same q with
    | true =>
      have places : p.components = q.components := beq_iff_eq.mp same
      have marked := here.marked
      simp only [Path.same, places] at marked
      exact marked
    | false => rw [left.marked q same, right.marked q same, before.marked]
  · intro f dotless
    by_cases same : q = p
    · rw [same]
      exact here.urls f dotless
    · rw [left.urls q f same dotless, right.urls q f same dotless, before.urls f dotless]

section
variable {tree : SourceTree} {dir q : Path} {s t : State}

theorem Rest.resolvePackage_alike (alike : ∀ n ∈ urlFiles, Alike (dir.join n) s t) (other : Alike q s t) :
    Alike q (after (resolvePackage tree dir) s) (after (resolvePackage tree dir) t) := by
  unfold resolvePackage
  cases firstExisting? tree dir requestFiles with
  | none => exact other
  | some requestPath =>
    cases urlFound : firstExisting? tree dir urlFiles with
    | none => exact other
    | some urlPath =>
      obtain ⟨url, urlName, rfl⟩ := firstExisting?_join urlFound
      obtain ⟨same, here⟩ := Steady.parseFile tree requestPath s t (alike url urlName)
      have elsewhere := (Steady.parseFile tree requestPath s t other).2
      simp only [after_bind]
      rw [← same]
      cases answer (parseFile tree requestPath) s with
      | none => exact elsewhere
      | some file =>
        have uses := directEndpoints_uses tree (dir.join url) file.functions {}
        have steady := directEndpoints_steady tree (dir.join url) file.functions {}
        exact (uses _).touches.alike (uses _).touches (steady _ _ here).2 elsewhere

-- Generated packages have no URL files.
theorem Generated.resolvePackage_cache : (after (resolvePackage tree dir) s).cache = s.cache := by
  unfold resolvePackage
  cases clientAndMeta? tree dir with
  | none => rfl
  | some paths =>
    obtain ⟨clientPath, metaPath⟩ := paths
    dsimp only
    rw [after_bind, after_parseFile]
    cases answer (parseFile tree metaPath) s with
    | none => rfl
    | some described =>
      dsimp only
      rw [after_bind, after_parseFile]
      cases answer (parseFile tree clientPath) { s with reads := s.reads ++ [metaPath] } with
      | none => rfl
      | some client =>
        dsimp only
        rw [after_bind, after_pure, (operations_exact metaPath _ _ _ _).2]

theorem Convention.resolvePackage_alike (c : Convention)
    (alike : ∀ n ∈ Rest.urlFiles, Alike (dir.join n) s t) (other : Alike q s t) :
    Alike q (after (c.resolvePackage tree dir) s) (after (c.resolvePackage tree dir) t) := by
  unfold resolvePackage
  cases c.kind with
  | rest => exact Rest.resolvePackage_alike alike other
  | generated =>
    refine ⟨?_, ?_⟩
    · simp only [Generated.resolvePackage_cache]
      exact other.marked
    · intro f dotless
      simp only [Generated.resolvePackage_cache]
      exact other.urls f dotless

end

namespace Vendor

variable {v : Vendor} {tree : SourceTree} {here : Path → Bool} {dir : Path} {c : Convention} {s t : State}

-- The states remember the same of all directories but the one that `here` names.
structure Matching (here : Path → Bool) (s t : State) : Prop where
  packages : s.cache.packages = t.cache.packages
  files : ∀ d, here d = false → ∀ n ∈ Rest.urlFiles, Alike (d.join n) s t
  endpoints : ∀ d f, here d = false → Dotless f →
    s.cache.endpoints.lookup (Cache.key d f) = t.cache.endpoints.lookup (Cache.key d f)

theorem matching_refl (here : Path → Bool) (s : State) : Matching here s s :=
  ⟨rfl, fun _ _ _ _ => ⟨rfl, fun _ _ => rfl⟩, fun _ _ _ _ => rfl⟩

def withTree (v : Vendor) (tree : SourceTree) : Vendor := { v with tree }

theorem entering_alike {q : Path} (alike : ∀ n ∈ Rest.urlFiles, Alike (dir.join n) s t)
    (other : Alike q s t) :
    Alike q (after (v.entering c dir) (marking dir s)) (after (v.entering c dir) (marking dir t)) := by
  have marked : ∀ {p}, Alike p s t → Alike p (marking dir s) (marking dir t) :=
    fun alike => ⟨alike.marked, alike.urls⟩
  have inside : ∀ n ∈ Rest.urlFiles, Alike (dir.join n) (marking dir s) (marking dir t) :=
    fun n name => marked (alike n name)
  have tables : answer (c.resolvePackage v.tree dir) (marking dir s) =
      answer (c.resolvePackage v.tree dir) (marking dir t) := c.resolvePackage_steady inside
  have resolved : Alike q (after (c.resolvePackage v.tree dir) (marking dir s))
      (after (c.resolvePackage v.tree dir) (marking dir t)) := c.resolvePackage_alike inside (marked other)
  unfold entering
  simp only [after_bind]
  rw [← tables]
  cases answer (c.resolvePackage v.tree dir) (marking dir s) with
  | none => exact resolved
  | some table =>
    simp only [storeEndpoints, after_modify]
    rw [insertEndpoints_frame, insertEndpoints_frame table.entries dir
      (after (c.resolvePackage v.tree dir) (marking dir t)).cache]
    exact ⟨resolved.marked, resolved.urls⟩

-- A package elsewhere is entered by the same work, with the same table.
theorem Matching.entered_elsewhere (matching : Matching here s t) (out : here dir = false) :
    Matching here (after (v.entering c dir) (marking dir s)) (after (v.entering c dir) (marking dir t)) := by
  have alike := matching.files dir out
  have left := v.entering_enters c dir s
  have right := v.entering_enters c dir t
  have tables : answer (c.resolvePackage v.tree dir) (marking dir s) =
      answer (c.resolvePackage v.tree dir) (marking dir t) :=
    c.resolvePackage_steady fun n name => ⟨(alike n name).marked, (alike n name).urls⟩
  refine ⟨?_, ?_, ?_⟩
  · rw [left.packages, right.packages, matching.packages]
  · intro d other n name
    exact entering_alike alike (matching.files d other n name)
  · intro d f other dotless
    rw [left.endpoints d f dotless, right.endpoints d f dotless, tables,
      matching.endpoints d f other dotless]

-- What entering the place itself adds is not looked at.
theorem Entered.outside {t : State} (places : Path.OfPlaces here) (entered : v.Entered c dir s t)
    (inside : here dir = true) :
    (∀ d, here d = false → ∀ n ∈ Rest.urlFiles, Alike (d.join n) s t) ∧
      ∀ d f, here d = false → Dotless f →
        t.cache.endpoints.lookup (Cache.key d f) = s.cache.endpoints.lookup (Cache.key d f) := by
  have apart : ∀ d, here d = false → ∀ n ∈ Rest.urlFiles, ∀ m ∈ Rest.urlFiles,
      (d.join n).components ≠ (dir.join m).components := fun d out n name m name' =>
    places.apart out inside (urlFile_isName n name) (urlFile_isName m name')
  refine ⟨?_, ?_⟩
  · intro d out n name
    refine ⟨?_, ?_⟩
    · obtain ⟨marks, names, files⟩ := entered.files
      have unmarked : (marks.map dir.join).any (·.same (d.join n)) = false := by
        rw [List.any_eq_false]
        intro q member same
        obtain ⟨m, name', rfl⟩ := List.mem_map.mp member
        exact apart d out n name m (names m name') (beq_iff_eq.mp same).symm
      rw [files, List.any_append, unmarked, Bool.or_false]
    · intro f dotless
      refine (entered.urls (d.join n) f ?_ dotless).symm
      intro m name' same
      exact apart d out n name m name' (congrArg Path.components same)
  · intro d f out dotless
    have other : d ≠ dir := by
      rintro rfl
      rw [inside] at out
      cases out
    rw [entered.endpoints d f dotless, if_neg other, Option.or_none]

theorem Matching.entered_here {w : Vendor} {s' t' : State} (matching : Matching here s t)
    (places : Path.OfPlaces here) (inside : here dir = true) (left : v.Entered c dir s s')
    (right : w.Entered c dir t t') : Matching here s' t' := by
  obtain ⟨left_files, left_endpoints⟩ := left.outside places inside
  obtain ⟨right_files, right_endpoints⟩ := right.outside places inside
  refine ⟨?_, ?_, ?_⟩
  · rw [left.packages, right.packages, matching.packages]
  · intro d out n name
    have before := matching.files d out n name
    have left := left_files d out n name
    have right := right_files d out n name
    refine ⟨by rw [← left.marked, ← right.marked, before.marked], ?_⟩
    intro f dotless
    rw [← left.urls f dotless, ← right.urls f dotless, before.urls f dotless]
  · intro d f out dotless
    rw [left_endpoints d f out dotless, right_endpoints d f out dotless,
      matching.endpoints d f out dotless]

variable (lists : v.tree.ListsNames) (differ : SourceTree.DifferIn here v.tree tree)
include lists differ

theorem entered_matching (c : Convention) (dir : Path) (matching : Matching here s t) :
    Matching here (v.entered c dir s) ((v.withTree tree).entered c dir t) := by
  unfold entered
  rw [matching.packages]
  split
  · exact matching
  · cases place : here dir with
    | true =>
      exact matching.entered_here differ.places place (v.entering_enters c dir s)
        (entering_enters _ c dir t)
    | false =>
      have work : (v.withTree tree).entering c dir = v.entering c dir := by
        unfold entering withTree
        rw [c.resolvePackage_congr (differ.agree dir place).sources lists]
      rw [work]
      exact matching.entered_elsewhere place

theorem lookUp_matching (l : Lookup) (matching : Matching here s t) :
    Matching here (after (v.lookUp l) s) (after ((v.withTree tree).lookUp l) t) ∧
      (here (v.dirOf l) = false → Dotless l.function →
        answer (v.lookUp l) s = answer ((v.withTree tree).lookUp l) t) := by
  have entered := entered_matching lists differ l.convention (v.dirOf l) matching
  have left := v.lookUp_exact l s
  have right := (v.withTree tree).lookUp_exact l t
  rw [left.1, left.2, right.1, right.2]
  refine ⟨?_, ?_⟩
  · refine ⟨entered.packages, ?_, entered.endpoints⟩
    intro d out n name
    have alike := entered.files d out n name
    exact ⟨alike.marked, alike.urls⟩
  · intro out dotless
    exact entered.endpoints (v.dirOf l) l.function out dotless

end Vendor

end Sdk

end CallAtlas
