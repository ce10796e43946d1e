import CallAtlas.Proofs.Sdk.Ensured
import CallAtlas.Proofs.Sdk.Trees

namespace CallAtlas.Sdk

open CallAtlas.Text Resolving

def SourceTree.Holds (tree : SourceTree) (path : Path) (file : Go.SourceFile) : Prop :=
  ∃ body, tree.read? path = some body ∧ Go.SourceFile.ofBody path body = .ok file

-- What a function of a URL file builds, a fixed URL, or the path of a request that is described.
inductive SourceTree.Offers (tree : SourceTree) : String → Prop where
  | built {dir : Path} {n url : String} {file : Go.SourceFile} {f : Go.Function}
      (name : n ∈ Rest.urlFiles) (held : tree.Holds (dir.join n) file) (member : f ∈ file.functions)
      (builds : Rest.urlFunction file f = .builds url) : Offers tree url
  | fixed {path : Path} {function url : String} (given : fixedUrl? path function = some url) :
      Offers tree url
  | described {path : Path} {file : Go.SourceFile} {f : Go.Function} {e : Endpoint}
      (held : tree.Holds path file) (member : f ∈ file.functions)
      (shown : Generated.described? f = some e) : Offers tree e.url

theorem Resolving.parseFile_holds {tree : SourceTree} {path : Path} {s : State} {file : Go.SourceFile}
    (parsed : answer (parseFile tree path) s = some file) : tree.Holds path file := by
  unfold parseFile at parsed
  simp only [answer_bind] at parsed
  split at parsed
  · cases parsed
  · rename_i body read
    split at parsed
    · rename_i file' made
      cases parsed
      exact ⟨body, read, made⟩
    · cases parsed

-- The URLs that a function has a part in, each way of reading it counted.
def functionUrls (file : Go.SourceFile) (f : Go.Function) : List String :=
  let built :=
    match Rest.urlFunction file f with
    | .builds url => [url]
    | _ => []
  built ++ ((Generated.described? f).map (·.url)).toList

def fileUrls (entry : Path × Body) : List String :=
  match Go.SourceFile.ofBody entry.1 entry.2 with
  | .ok file => file.functions.flatMap (functionUrls file)
  | .error _ => []

theorem fileUrls_held {files : List (Path × Body)} {path : Path} {file : Go.SourceFile}
    (held : (SourceTree.ofFiles files).Holds path file) {f : Go.Function} (member : f ∈ file.functions)
    {url : String} (has : url ∈ functionUrls file f) : url ∈ files.flatMap fileUrls := by
  obtain ⟨body, found, read⟩ := held
  obtain ⟨entry, first, rfl⟩ := Option.map_eq_some_iff.mp found
  refine List.mem_flatMap.mpr ⟨entry, List.mem_of_find?_eq_some first, ?_⟩
  unfold fileUrls
  rw [Go.SourceFile.ofBody_path read entry.1]
  exact List.mem_flatMap.mpr ⟨f, member, has⟩

theorem SourceTree.ofFiles_offers {files : List (Path × Body)} {url : String}
    (offers : (SourceTree.ofFiles files).Offers url) :
    url ∈ files.flatMap fileUrls ++ fixedUrls.map (·.url) := by
  rw [List.mem_append]
  cases offers with
  | built name held member builds =>
    refine .inl (fileUrls_held held member ?_)
    simp [functionUrls, builds]
  | fixed given =>
    obtain ⟨x, first, rfl⟩ := Option.map_eq_some_iff.mp given
    exact .inr (List.mem_map_of_mem (List.mem_of_find?_eq_some first))
  | described held member shown =>
    refine .inl (fileUrls_held held member ?_)
    simp [functionUrls, shown]

structure Offered (tree : SourceTree) (s : State) : Prop where
  urls : ∀ entry ∈ s.cache.urls, tree.Offers entry.2
  endpoints : ∀ entry ∈ s.cache.endpoints, tree.Offers entry.2.url

theorem offered_start (tree : SourceTree) : Offered tree {} := ⟨nofun, nofun⟩

theorem offered_ofCache (tree : SourceTree) : OfCache (Offered tree) := by
  intro s t same offered
  exact ⟨same ▸ offered.urls, same ▸ offered.endpoints⟩

theorem Cache.mem_addNew {α : Type} {entries : List (String × α)} {k : String} {v : α}
    {entry : String × α} (member : entry ∈ addNew entries k v) : entry ∈ entries ∨ entry = (k, v) := by
  unfold addNew at member
  split at member
  · exact .inl member
  · simpa using member

theorem Cache.lookup_mem {α : Type} {entries : List (String × α)} {k : String} {v : α}
    (found : entries.lookup k = some v) : (k, v) ∈ entries := by
  obtain ⟨before, rest, whole, _⟩ := List.lookup_eq_some_iff.mp found
  rw [whole]
  exact List.mem_append_right _ List.mem_cons_self

namespace Rest

variable {tree : SourceTree} {p dir : Path}

theorem storeUrl_offered {url : String} (offers : tree.Offers url) (f : String) :
    Ensures (Offered tree) (fun _ => True) (storeUrl p f url) := by
  intro s offered
  refine ⟨trivial, ?_, offered.endpoints⟩
  intro entry member
  rcases Cache.mem_addNew member with old | rfl
  · exact offered.urls entry old
  · cases fixed : fixedUrl? p f with
    | none => exact offers
    | some given => exact .fixed fixed

theorem storeBuilders_offered {file : Go.SourceFile} {functions : List Go.Function}
    (offers : ∀ f ∈ functions, ∀ url, urlFunction file f = .builds url → tree.Offers url) :
    Ensures (Offered tree) (fun _ => True) (storeBuilders p file functions) := by
  induction functions with
  | nil => exact .pure trivial
  | cons f rest ih =>
    obtain ⟨first, others⟩ := List.forall_mem_cons.mp offers
    have later := ih others
    rw [storeBuilders]
    cases function : urlFunction file f with
    | builds url => exact (storeUrl_offered (first url function) f.name).bind fun _ _ => later
    | delegates callee => exact later.bind fun _ _ => .pure trivial
    | neither => exact (Ensures.warn _).bind fun _ _ => later

theorem storeDelegations_offered (delegations : List (String × String)) :
    Ensures (Offered tree) (fun _ => True) (storeDelegations p delegations) := by
  induction delegations with
  | nil => exact .pure trivial
  | cons d rest ih =>
    obtain ⟨function, callee⟩ := d
    intro s offered
    rw [storeDelegations]
    simp only [after_bind, answer_get, after_get]
    cases found : s.cache.url? p callee with
    | none => exact ih s offered
    | some url =>
      have offers : tree.Offers url := offered.urls _ (Cache.lookup_mem found)
      exact (((storeUrl_offered offers function).bind fun _ _ => ih) s offered)

theorem readUrlFile_offered {n : String} (name : n ∈ urlFiles) :
    Ensures (Offered tree) (fun _ => True) (readUrlFile tree (dir.join n)) := by
  refine (Ensures.parseFile (offered_ofCache tree) tree (dir.join n)).bind fun parsed read => ?_
  cases parsed with
  | none => exact .pure trivial
  | some file =>
    obtain ⟨s, read⟩ := read
    refine (storeBuilders_offered ?_).bind fun delegations _ => storeDelegations_offered delegations
    intro f member url builds
    exact .built name (parseFile_holds read) member builds

theorem urlOf_offered {n : String} (name : n ∈ urlFiles) (builder : String) :
    Ensures (Offered tree) (fun u => ∀ url ∈ u, tree.Offers url) (urlOf tree (dir.join n) builder) := by
  intro s offered
  have opening : Offered tree (opened tree (dir.join n) s) := by
    unfold opened
    split
    · exact offered
    · refine (readUrlFile_offered name _ ?_).2
      exact ⟨offered.urls, offered.endpoints⟩
  rw [(urlOf_exact tree (dir.join n) builder s).1, (urlOf_exact tree (dir.join n) builder s).2]
  exact ⟨fun url found => opening.urls _ (Cache.lookup_mem found), opening⟩

end Rest

theorem Convention.resolvePackage_offered (c : Convention) (tree : SourceTree) (dir : Path) :
    Ensures (Offered tree) (fun r => ∀ table ∈ r, UrlsOf tree.Offers table) (c.resolvePackage tree dir) := by
  unfold resolvePackage
  cases c.kind with
  | rest =>
    exact Rest.resolvePackage_ensures (offered_ofCache tree) fun n name builder _ =>
      Rest.urlOf_offered name builder
  | generated =>
    refine Generated.resolvePackage_ensures (offered_ofCache tree) ?_
    intro path file s parsed f member e shown
    exact .described (parseFile_holds parsed) member shown

theorem insertEndpoints_offered {tree : SourceTree} {entries : List (String × Endpoint)}
    (urls : ∀ e ∈ entries, tree.Offers e.2.url) (dir : Path) {s : State} (offered : Offered tree s) :
    Offered tree { s with cache := entries.foldl (fun c e => c.insertEndpoint dir e.1 e.2) s.cache } := by
  induction entries generalizing s with
  | nil => exact offered
  | cons e rest ih =>
    obtain ⟨first, others⟩ := List.forall_mem_cons.mp urls
    have next : Offered tree { s with cache := s.cache.insertEndpoint dir e.1 e.2 } := by
      refine ⟨offered.urls, ?_⟩
      intro entry member
      rcases Cache.mem_addNew member with old | rfl
      · exact offered.endpoints entry old
      · exact first
    exact ih others next

namespace Vendor

theorem lookUp_offered (v : Vendor) (l : Lookup) :
    Ensures (Offered v.tree) (fun r => ∀ e ∈ r, v.tree.Offers e.url) (v.lookUp l) := by
  intro s offered
  have entering : Offered v.tree (v.entered l.convention (v.dirOf l) s) := by
    unfold entered
    split
    · exact offered
    · have resolved := l.convention.resolvePackage_offered v.tree (v.dirOf l) (marking (v.dirOf l) s)
        ⟨offered.urls, offered.endpoints⟩
      unfold Vendor.entering
      rw [after_bind]
      cases found : answer (l.convention.resolvePackage v.tree (v.dirOf l)) (marking (v.dirOf l) s) with
      | none => exact resolved.2
      | some table =>
        refine insertEndpoints_offered ?_ (v.dirOf l) resolved.2
        intro e member
        exact resolved.1 table found e.2 (List.mem_map_of_mem member)
  rw [(v.lookUp_exact l s).1, (v.lookUp_exact l s).2]
  refine ⟨?_, entering.urls, entering.endpoints⟩
  intro e found
  exact entering.endpoints _ (Cache.lookup_mem found)

theorem lookUpAll_offered (v : Vendor) (ls : List Lookup) :
    Ensures (Offered v.tree) (fun _ => True) (v.lookUpAll ls) := by
  intro s offered
  have each := Ensures.mapM fun l (_ : l ∈ ls) => v.lookUp_offered l
  exact ⟨trivial, (each s offered).2⟩

end Vendor

end CallAtlas.Sdk
