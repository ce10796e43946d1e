import CallAtlas.Proofs.Data.SortedMap
import CallAtlas.Proofs.Sdk.Separation

namespace CallAtlas.Sdk

open CallAtlas.Text Resolving

namespace Resolving

-- From a state with the property the work leaves one with it, and its result is as said.
def Ensures (P : State → Prop) (Q : α → Prop) (m : Resolving α) : Prop :=
  ∀ s, P s → Q (answer m s) ∧ P (after m s)

variable {P : State → Prop} {Q : α → Prop} {R : β → Prop}

theorem Ensures.pure {a : α} (given : Q a) : Ensures P Q (Pure.pure a) := fun _ kept => ⟨given, kept⟩

theorem Ensures.bind {m : Resolving α} {f : α → Resolving β} (first : Ensures P Q m)
    (second : ∀ a, Q a → Ensures P R (f a)) : Ensures P R (m >>= f) := by
  intro s before
  obtain ⟨given, middle⟩ := first s before
  exact second _ given _ middle

theorem Ensures.map {m : Resolving α} {f : α → β} (ensures : Ensures P Q m) (kept : ∀ {a}, Q a → R (f a)) :
    Ensures P R (f <$> m) :=
  fun s before => ⟨kept (ensures s before).1, (ensures s before).2⟩

theorem Ensures.mapM {f : γ → Resolving α} {cs : List γ} (each : ∀ c ∈ cs, Ensures P Q (f c)) :
    Ensures P (fun found => ∀ a ∈ found, Q a) (cs.mapM f) := by
  induction cs with
  | nil => exact .pure nofun
  | cons c rest ih =>
    obtain ⟨first, others⟩ := List.forall_mem_cons.mp each
    rw [List.mapM_cons]
    refine first.bind fun _ one => (ih others).bind fun _ more => .pure ?_
    exact List.forall_mem_cons.mpr ⟨one, more⟩

theorem Ensures.warn (text : String) : Ensures P (fun _ => True) (Resolving.warn text) :=
  fun _ kept => ⟨trivial, kept⟩

-- What is worked out beside the state does not change it.
theorem Ensures.lift (n : Noted α) {f : α → Resolving β} (second : Ensures P R (f n.value)) :
    Ensures P R ((liftM n : Resolving α) >>= f) := second

-- A property of what is remembered. Which files have been read does not count.
def OfCache (P : State → Prop) : Prop := ∀ s t : State, s.cache = t.cache → P s → P t

theorem Ensures.parseFile (remembered : OfCache P) (tree : SourceTree) (path : Path) :
    Ensures P (fun file => ∃ s, answer (Resolving.parseFile tree path) s = file)
      (Resolving.parseFile tree path) := by
  intro s before
  refine ⟨⟨s, rfl⟩, ?_⟩
  rw [after_parseFile]
  exact remembered s _ rfl before

end Resolving

def UrlsOf (T : String → Prop) (table : EndpointTable) : Prop := ∀ e ∈ table.values, T e.url

variable {P : State → Prop} {T : String → Prop}

theorem urlsOf_empty : UrlsOf T {} := nofun

theorem UrlsOf.insert {table : EndpointTable} (urls : UrlsOf T table) {e : Endpoint} (url : T e.url)
    (name : String) : UrlsOf T (table.insert name e) := by
  intro found member
  rcases SortedMap.mem_values_insert member with old | rfl
  · exact urls found old
  · exact url

theorem UrlsOf.ofList {entries : List (String × Endpoint)} (urls : ∀ e ∈ entries, T e.2.url) :
    UrlsOf T (SortedMap.ofList entries) := by
  have all : ∀ table : EndpointTable, UrlsOf T table →
      UrlsOf T (entries.foldl (fun m e => m.insert e.1 e.2) table) := by
    induction entries with
    | nil => exact fun _ before => before
    | cons e rest ih =>
      intro table before
      obtain ⟨first, others⟩ := List.forall_mem_cons.mp urls
      exact ih others _ (before.insert first e.1)
  exact all _ urlsOf_empty

namespace Rest

variable {tree : SourceTree} {p dir : Path}

section
variable (known : ∀ builder, Dotless builder → Ensures P (fun u => ∀ url ∈ u, T url) (urlOf tree p builder))
include known

theorem lastEndpoint_ensures {source : String} {requests : List Request}
    (words : ∀ r ∈ requests, WordSource r.source) {found : Option Endpoint}
    (before : ∀ e ∈ found, T e.url) :
    Ensures P (fun r => ∀ e ∈ r, T e.url) (lastEndpoint tree p source requests found) := by
  induction requests generalizing found with
  | nil => exact .pure before
  | cons r rest ih =>
    obtain ⟨word, others⟩ := List.forall_mem_cons.mp words
    rw [lastEndpoint]
    cases named : r.builder? source with
    | none => exact ih others before
    | some builder =>
      refine (known builder (builder?_dotless word named)).bind fun u given => ?_
      cases u with
      | none => exact ih others before
      | some url =>
        refine ih others ?_
        rintro _ ⟨⟩
        exact given url rfl

theorem directEndpoints_ensures (functions : List Go.Function) {table : EndpointTable}
    (before : UrlsOf T table) :
    Ensures P (fun r => UrlsOf T r.1) (directEndpoints tree p functions table) := by
  induction functions generalizing table with
  | nil => exact .pure before
  | cons f rest ih =>
    rw [directEndpoints]
    cases shown : requests? f.source with
    | none => exact (ih before).bind fun _ given => .pure given
    | some requests =>
      have start : ∀ e ∈ (none : Option Endpoint), T e.url := fun e none => absurd none (Option.not_mem_none e)
      refine (lastEndpoint_ensures known (requests?_sources shown) start).bind fun found given => ?_
      cases found with
      | none => exact ih before
      | some e => exact ih (before.insert (given e rfl) f.name)

end

theorem copyEndpoints_urls {calls : Pattern} {functions : List Go.Function} {table : EndpointTable}
    (urls : UrlsOf T table) : UrlsOf T (copyEndpoints calls functions table) := by
  induction functions generalizing table with
  | nil => exact urls
  | cons f rest ih =>
    simp only [copyEndpoints]
    split
    · rename_i e copied
      obtain ⟨m, _, found⟩ := List.mem_filterMap.mp (List.mem_of_getLast? copied)
      exact ih (urls.insert (urls e (SortedMap.mem_values_of_get? found)) f.name)
    · exact ih urls

theorem resolvePackage_ensures (remembered : OfCache P)
    (known : ∀ n ∈ urlFiles, ∀ builder, Dotless builder →
      Ensures P (fun u => ∀ url ∈ u, T url) (urlOf tree (dir.join n) builder)) :
    Ensures P (fun r => ∀ table ∈ r, UrlsOf T table) (resolvePackage tree dir) := by
  unfold resolvePackage
  split
  · rename_i urlPath _ urlFound
    obtain ⟨url, urlName, rfl⟩ := firstExisting?_join urlFound
    refine (Ensures.parseFile remembered tree _).bind fun file _ => ?_
    cases file with
    | none => exact .pure nofun
    | some file =>
      refine (directEndpoints_ensures (known url urlName) file.functions urlsOf_empty).bind fun r given => ?_
      refine .pure ?_
      rintro _ ⟨⟩
      exact copyEndpoints_urls given
  · exact .pure nofun

end Rest

namespace Generated

theorem operations_urls {metaPath : Path} {requests : SortedMap String Endpoint}
    (described : UrlsOf T requests) (functions : List Go.Function) {table : EndpointTable}
    (before : UrlsOf T table) :
    Ensures P (UrlsOf T) (operations metaPath requests functions table) := by
  induction functions generalizing table with
  | nil => exact .pure before
  | cons f rest ih =>
    rw [operations]
    cases generatorPattern.find? f.source with
    | none => exact ih before
    | some m =>
      dsimp only
      cases found : requests.get? (m.group 0) with
      | none => exact (Ensures.warn _).bind fun _ _ => ih before
      | some e => exact ih (before.insert (described e (SortedMap.mem_values_of_get? found)) f.name)

theorem resolvePackage_ensures {tree : SourceTree} {dir : Path} (remembered : OfCache P)
    (known : ∀ path file s, answer (parseFile tree path) s = some file →
      ∀ f ∈ file.functions, ∀ e ∈ described? f, T e.url) :
    Ensures P (fun r => ∀ table ∈ r, UrlsOf T table) (resolvePackage tree dir) := by
  unfold resolvePackage
  cases clientAndMeta? tree dir with
  | none => exact .pure nofun
  | some paths =>
    obtain ⟨clientPath, metaPath⟩ := paths
    refine (Ensures.parseFile remembered tree metaPath).bind fun described parsed => ?_
    cases described with
    | none => exact .pure nofun
    | some described =>
      obtain ⟨s, parsed⟩ := parsed
      have urls : UrlsOf T (descriptions described) := by
        refine .ofList ?_
        intro entry member
        obtain ⟨f, inside, found⟩ := List.mem_filterMap.mp member
        obtain ⟨e, shown, rfl⟩ := Option.map_eq_some_iff.mp found
        exact known metaPath described s parsed f inside e shown
      refine (Ensures.parseFile remembered tree clientPath).bind fun client _ => ?_
      cases client with
      | none => exact .pure nofun
      | some client =>
        refine (operations_urls urls client.functions urlsOf_empty).bind fun table given => .pure ?_
        rintro _ ⟨⟩
        exact given

end Generated

end CallAtlas.Sdk
