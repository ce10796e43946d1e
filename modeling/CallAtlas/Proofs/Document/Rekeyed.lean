import CallAtlas.Document.Generated
import CallAtlas.Proofs.Call.Methods
import CallAtlas.Proofs.Data.Readable
import CallAtlas.Proofs.Document.Operations
import CallAtlas.Proofs.Text.Spans

namespace CallAtlas

namespace Text

theorem splitOnce?_iff {sep : Char} {s a b : String} :
    splitOnce? sep s = some (a, b) ↔ s.toList = a.toList ++ sep :: b.toList ∧ sep ∉ a.toList := by
  have whole := List.takeWhile_append_dropWhile (p := (· != sep)) (l := s.toList)
  have bare : sep ∉ s.toList.takeWhile (· != sep) := by
    intro member
    have other := List.all_eq_true.mp List.all_takeWhile sep member
    simp at other
  unfold splitOnce?
  dsimp only
  cases behind : s.toList.dropWhile (· != sep) with
  | nil =>
    rw [behind, List.append_nil] at whole
    constructor
    · nofun
    · rintro ⟨same, _⟩
      refine absurd ?_ bare
      rw [whole, same]
      exact List.mem_append_right _ List.mem_cons_self
  | cons c rest =>
    have separates : c = sep := by
      have stopped := List.head?_dropWhile_not (· != sep) s.toList
      rw [behind] at stopped
      simpa using stopped
    subst separates
    rw [behind] at whole
    simp only [Option.some.injEq, Prod.mk.injEq]
    constructor
    · rintro ⟨rfl, rfl⟩
      rw [String.toList_ofList, String.toList_ofList]
      exact ⟨whole.symm, bare⟩
    · rintro ⟨same, first⟩
      rw [same] at behind
      have fits : a.toList.all (· != c) = true := by
        refine List.all_eq_true.mpr fun d member => ?_
        rw [bne_iff_ne]
        rintro rfl
        exact first member
      have stops : (c :: b.toList).head?.any (· != c) = false := by simp
      have lead := takeWhile_inside fits stops
      rw [dropWhile_inside fits stops, List.cons.injEq] at behind
      rw [same, lead, ← behind.2, String.ofList_toList, String.ofList_toList]
      exact ⟨rfl, rfl⟩

section

variable {p : Char → Bool} {lead core : List Char}

theorem trimBy_core (fits : lead.all p = true) (first : core.head?.any p = false)
    (last : ∀ c, core.getLast? = some c → p c = false) : trimBy p (lead ++ core) = core := by
  rw [trimBy, trimStartBy, dropWhile_inside fits first]
  exact trimEndBy_bare last

theorem trimBy_last (text : List Char) : ∀ c, (trimBy p text).getLast? = some c → p c = false :=
  trimEndBy_bare_last _

theorem trimEndBy_first (text : List Char) (stays : text.head?.any p = false) :
    (trimEndBy p text).head?.any p = false := by
  cases text with
  | nil => rfl
  | cons c rest =>
    have first : p c = false := stays
    rw [trimEndBy]
    split
    · simp [first]
    · exact first

-- What is trimmed begins behind what is cut off.
theorem trimBy_lead (text : List Char) (stays : ∀ c, text.getLast? = some c → p c = false) :
    ∃ lead, lead.all p = true ∧ text = lead ++ trimBy p text ∧ (trimBy p text).head?.any p = false := by
  have left : trimEndBy p (text.dropWhile p) = text.dropWhile p := by
    refine trimEndBy_bare fun c last => ?_
    refine stays c ?_
    rw [← List.takeWhile_append_dropWhile (p := p) (l := text), List.getLast?_append, last]
    rfl
  refine ⟨text.takeWhile p, List.all_takeWhile, ?_, ?_⟩
  · rw [trimBy, trimStartBy, left, List.takeWhile_append_dropWhile]
  · exact trimEndBy_first _ (dropWhile_ends p text)

end

end Text

open CallAtlas.Text

-- Trimmed, a text names a method, in any letter case, and behind a space and perhaps more white space a
-- path without spaces.
def Denotes (api : String) (m : Method) (path : String) : Prop :=
  ∃ verb gap, trim api = verb ++ " " ++ gap ++ path ∧ m.Spells verb ∧ gap.toList.all isBlank = true ∧
    path ≠ "" ∧ ' ' ∉ path.toList ∧ path.toList.head?.any isBlank = false

namespace Description

theorem request?_iff {api path : String} {m : Method} : request? api = some (m, path) ↔ Denotes api m path := by
  have bare : ∀ c, (trim api).toList.getLast? = some c → isBlank c = false := by
    rw [trim, String.toList_ofList]
    exact trimBy_last _
  have parts : ∀ {verb rest : String}, (trim api).toList = verb.toList ++ ' ' :: rest.toList →
      ∀ c, rest.toList.getLast? = some c → isBlank c = false := by
    intro verb rest whole c last
    refine bare c ?_
    rw [whole, List.getLast?_append, List.getLast?_cons, last]
    rfl
  constructor
  · intro found
    obtain ⟨⟨verb, rest⟩, cut, found⟩ := Option.bind_eq_some_iff.mp found
    obtain ⟨whole, _⟩ := splitOnce?_iff.mp cut
    dsimp only at found
    split at found
    · cases found
    rename_i plain
    obtain ⟨method, named, made⟩ := Option.bind_eq_some_iff.mp found
    cases made
    obtain ⟨lead, blank, split, first⟩ := trimBy_lead rest.toList (parts whole)
    simp only [Bool.or_eq_true, beq_iff_eq, not_or] at plain
    have chars : (trim rest).toList = trimBy isBlank rest.toList := String.toList_ofList
    refine ⟨verb, String.ofList lead, ?_, Method.ofText?_iff.mp named, ?_, plain.1, ?_, ?_⟩
    · rw [← String.toList_inj, whole]
      simp only [String.toList_append, String.toList_ofList, chars, List.append_assoc]
      rw [← split]
      rfl
    · rwa [String.toList_ofList]
    · simpa [containsChar] using plain.2
    · rwa [chars]
  · rintro ⟨verb, gap, whole, spells, blank, filled, spaceless, first⟩
    have cut : splitOnce? ' ' (trim api) = some (verb, gap ++ path) := by
      refine splitOnce?_iff.mpr ⟨?_, fun member => ?_⟩
      · rw [whole]
        simp
      · have letter := spells.letters ' ' member
        exact absurd letter (by decide)
    have last : ∀ c, path.toList.getLast? = some c → isBlank c = false := by
      intro c last
      refine bare c ?_
      rw [whole, String.toList_append, List.getLast?_append, last]
      rfl
    have path_eq : trim (gap ++ path) = path := by
      rw [trim, String.toList_append, trimBy_core blank first last, String.ofList_toList]
    rw [request?, cut]
    simp only [Option.bind_eq_bind, Option.bind_some, path_eq]
    have plain : (path == "" || containsChar path ' ') = false := by
      simp [filled, containsChar, spaceless]
    rw [plain, Method.ofText?_iff.mpr spells]
    rfl

-- Paths and methods stand in order, as they do in every description that is read.
structure Ordered (d : Description) : Prop where
  paths : d.paths.Sorted
  methods : ∀ m ∈ d.paths.values, m.Sorted

-- The operations with the path and the method that the description has them under.
def placed (d : Description) : List ((String × String) × DescribedOperation) :=
  d.paths.entries.flatMap fun e => e.2.entries.map fun f => ((e.1, f.1), f.2)

theorem placed_operations (d : Description) : d.placed.map (·.2) = d.operations := by
  unfold placed operations SortedMap.values
  rw [List.map_flatMap, List.flatMap_map]
  refine List.flatMap_congr fun e _ => ?_
  rw [List.map_map]
  rfl

def Earlier (a b : String × String) : Prop := Prod.Lex (· < ·) (· < ·) a b

theorem Earlier.asymm {a b : String × String} (before : Earlier a b) : ¬ Earlier b a := by
  simp only [Earlier, Prod.lex_def] at *
  grind [String.lt_asymm, String.lt_irrefl]

theorem Ordered.placed {d : Description} (ordered : d.Ordered) :
    d.placed.Pairwise fun a b => Earlier a.1 b.1 := by
  unfold Description.placed
  refine List.pairwise_flatMap.mpr ⟨fun e member => ?_, ?_⟩
  · have sorted : e.2.Sorted := ordered.methods e.2 (List.mem_map_of_mem member)
    refine List.pairwise_map.mpr ((List.pairwise_map.mp sorted).imp fun before => ?_)
    exact Prod.Lex.right e.1 before
  · refine (List.pairwise_map.mp ordered.paths).imp fun before a first b second => ?_
    obtain ⟨_, _, rfl⟩ := List.mem_map.mp first
    obtain ⟨_, _, rfl⟩ := List.mem_map.mp second
    exact Prod.Lex.left _ _ before

-- Of the entries of a list in order, the first that fits is the one that no earlier one fits.
theorem find?_earlier {α : Type} {place : α → String × String} {items : List α} {fits : α → Bool} {a : α}
    (inOrder : items.Pairwise fun a b => Earlier (place a) (place b)) :
    items.find? fits = some a ↔
      a ∈ items ∧ fits a = true ∧ ∀ b ∈ items, Earlier (place b) (place a) → fits b = false := by
  constructor
  · intro found
    obtain ⟨here, before, after, rfl, missed⟩ := List.find?_eq_some_iff_append.mp found
    obtain ⟨_, behind, _⟩ := List.pairwise_append.mp inOrder
    refine ⟨List.mem_append_right _ List.mem_cons_self, here, fun b member sooner => ?_⟩
    rcases List.mem_append.mp member with first | later
    · simpa using missed b first
    · rcases List.mem_cons.mp later with rfl | later
      · exact absurd sooner sooner.asymm
      · exact absurd sooner ((List.pairwise_cons.mp behind).1 b later).asymm
  · rintro ⟨member, here, first⟩
    obtain ⟨before, after, rfl⟩ := List.append_of_mem member
    obtain ⟨_, _, across⟩ := List.pairwise_append.mp inOrder
    refine List.find?_eq_some_iff_append.mpr ⟨here, before, after, rfl, fun b sooner => ?_⟩
    rw [first b (List.mem_append_left _ sooner) (across b sooner a List.mem_cons_self)]
    rfl

theorem ofYaml_ordered {content : String} {d : Description} (read : ofYaml content = .ok d) : d.Ordered := by
  unfold ofYaml at read
  split at read
  · rename_i found
    cases read
    obtain ⟨v, _, found⟩ := Option.bind_eq_some_iff.mp found
    obtain ⟨fields, _, found⟩ := Option.bind_eq_some_iff.mp found
    split at found
    · rename_i given _
      obtain ⟨_, _, found⟩ := Option.bind_eq_some_iff.mp found
      obtain ⟨_, _, found⟩ := Option.bind_eq_some_iff.mp found
      obtain ⟨paths, read, found⟩ := Option.bind_eq_some_iff.mp found
      cases found
      cases given with
      | none =>
        cases read
        exact ⟨SortedMap.sorted_empty, nofun⟩
      | some w =>
        refine ⟨Readable.map?_sorted read, fun m member => ?_⟩
        obtain ⟨⟨key, _⟩, inside, rfl⟩ := List.mem_map.mp member
        obtain ⟨_, _, _, _, inner⟩ := (Readable.map?_mem read).mp inside
        exact Readable.map?_sorted inner
    · cases found
  · cases read

end Description

namespace Document

open CallAtlas.Description

abbrev Reference := (Method × String) × DescribedOperation

def reference? (o : DescribedOperation) : Option Reference := (request? o.api).map (·, o)

def references (d : Description) : List Reference := d.operations.filterMap reference?

def endpoint (r : Reference) : String × String := (r.1.2, r.1.1.text)

def referred (r : Reference) : Operation := ⟨r.2.product, r.2.operationId⟩

def addProduct (products : SortedMap String Unit) (r : Reference) : SortedMap String Unit :=
  if r.2.product == "" then products else products.insert r.2.product ()

theorem addRequest_value (resource : String) (r : Requests) (o : DescribedOperation) :
    (addRequest resource r o).value =
      (reference? o).elim r fun e => ⟨Paths.enter endpoint referred r.paths e, addProduct r.products e⟩ := by
  unfold addRequest reference?
  cases request? o.api <;> rfl

theorem addRequests_value (resource : String) (operations : List DescribedOperation) (r : Requests) :
    (operations.foldlM (addRequest resource) r).value =
      let entered := operations.filterMap reference?
      ⟨entered.foldl (Paths.enter endpoint referred) r.paths, entered.foldl addProduct r.products⟩ := by
  induction operations generalizing r with
  | nil => rfl
  | cons o rest ih =>
    rw [List.foldlM_cons, Noted.value_bind, ih, addRequest_value, List.filterMap_cons]
    cases reference? o <;> rfl

theorem products_sorted {products : SortedMap String Unit} (sorted : products.Sorted) (entered : List Reference) :
    (entered.foldl addProduct products).Sorted := by
  induction entered generalizing products with
  | nil => exact sorted
  | cons r rest ih =>
    rw [List.foldl_cons]
    apply ih
    unfold addProduct
    split
    · exact sorted
    · exact sorted.alter _ _

theorem products_listed (entered : List Reference) (products : SortedMap String Unit) (t : String) :
    t ∈ (entered.foldl addProduct products).keys ↔
      t ∈ products.keys ∨ t ≠ "" ∧ ∃ r ∈ entered, r.2.product = t := by
  induction entered generalizing products with
  | nil => simp
  | cons r rest ih =>
    have step : t ∈ (addProduct products r).keys ↔ t ∈ products.keys ∨ t ≠ "" ∧ r.2.product = t := by
      unfold addProduct
      split
      · rename_i nameless
        rw [beq_iff_eq] at nameless
        grind
      · rename_i named
        rw [beq_iff_eq] at named
        have keys : t ∈ (products.insert r.2.product ()).keys ↔ t = r.2.product ∨ t ∈ products.keys :=
          SortedMap.mem_keys_alterEntries
        grind
    rw [List.foldl_cons, ih, step, List.exists_mem_cons_iff]
    grind

theorem find?_references (d : Description) (m : Method) (path : String) :
    (references d).find? (endpoint · = (path, m.text)) =
      (d.placed.find? (request? ·.2.api = some (m, path))).map fun e => ((m, path), e.2) := by
  unfold references
  rw [← placed_operations]
  induction d.placed with
  | nil => rfl
  | cons e rest ih =>
    rw [List.map_cons, List.filterMap_cons, List.find?_cons]
    cases read : request? e.2.api with
    | none =>
      have nothing : reference? e.2 = none := by rw [reference?, read, Option.map_none]
      rw [nothing, ih]
      rfl
    | some found =>
      obtain ⟨n, p⟩ := found
      have something : reference? e.2 = some ((n, p), e.2) := by rw [reference?, read, Option.map_some]
      have texts : n.text = m.text ↔ n = m := ⟨Method.text_inj, congrArg Method.text⟩
      rw [something]
      dsimp only
      rw [List.find?_cons, ih]
      by_cases same : n = m ∧ p = path
      · obtain ⟨rfl, rfl⟩ := same
        simp [endpoint]
      · have apart : ¬ (p = path ∧ n.text = m.text) := by rwa [texts, and_comm]
        simp [endpoint, apart, same]

-- The first operation of a description that names a request.
structure FirstReference (d : Description) (m : Method) (path : String)
    (e : (String × String) × DescribedOperation) : Prop where
  placed : e ∈ d.placed
  denotes : Denotes e.2.api m path
  first : ∀ other ∈ d.placed, Earlier other.1 e.1 → ¬ Denotes other.2.api m path

theorem firstReference_iff {d : Description} (ordered : d.Ordered) {m : Method} {path : String}
    {e : (String × String) × DescribedOperation} :
    FirstReference d m path e ↔ d.placed.find? (request? ·.2.api = some (m, path)) = some e := by
  rw [find?_earlier ordered.placed]
  simp only [decide_eq_true_eq, decide_eq_false_iff_not, request?_iff]
  exact ⟨fun first => ⟨first.placed, first.denotes, first.first⟩, fun found => ⟨found.1, found.2.1, found.2.2⟩⟩

def Usable (o : DescribedOperation) : Prop := ∃ m path, Denotes o.api m path

theorem usable_iff {o : DescribedOperation} : (request? o.api).isSome = true ↔ Usable o := by
  rw [Option.isSome_iff_exists, Prod.exists]
  simp only [request?_iff]
  rfl

instance : DecidablePred Usable := fun _ => decidable_of_iff _ usable_iff

theorem references_usable (d : Description) :
    references d = (d.operations.filter (Usable ·)).filterMap reference? := by
  unfold references
  rw [List.filterMap_filter]
  refine List.filterMap_congr fun o _ => ?_
  by_cases usable : Usable o
  · rw [decide_eq_true usable, if_pos rfl]
  · have nothing : request? o.api = none := by
      rw [← Option.not_isSome_iff_eq_none, usable_iff]
      exact usable
    rw [decide_eq_false usable, reference?, nothing]
    rfl

-- What a document says of the operations of a description.
structure Rekeys (d : Description) (document : Document) : Prop where
  requested : ∀ path name, (document.paths.operation? path name).isSome = true ↔
    ∃ m, name = m.text ∧ ∃ o ∈ d.operations, Denotes o.api m path
  described : ∀ path name o, document.paths.operation? path name = some o ↔
    ∃ m e, name = m.text ∧ FirstReference d m path e ∧ o = ⟨e.2.product, e.2.operationId⟩
  increasing : document.tags.Pairwise (· < ·)
  tagged : ∀ t, t ∈ document.tags ↔ t ≠ "" ∧ ∃ o ∈ d.operations, Usable o ∧ o.product = t

theorem ofDescription_paths (resource : String) (d : Description) (provider version : String) :
    (ofDescription resource d provider version).value.paths =
      (references d).foldl (Paths.enter endpoint referred) {} :=
  congrArg Requests.paths (addRequests_value resource d.operations {})

theorem ofDescription_tags (resource : String) (d : Description) (provider version : String) :
    (ofDescription resource d provider version).value.tags = ((references d).foldl addProduct {}).keys :=
  congrArg (SortedMap.keys ∘ Requests.products) (addRequests_value resource d.operations {})

theorem ofDescription_found (resource : String) (d : Description) (provider version path name : String) :
    (ofDescription resource d provider version).value.paths.operation? path name =
      ((references d).find? (endpoint · = (path, name))).map referred := by
  rw [ofDescription_paths, Paths.Proper.empty.operation?_foldl]
  rfl

-- Operations that name no request count for nothing.
theorem ofDescription_usable {d d' : Description}
    (same : d'.operations.filter (Usable ·) = d.operations.filter (Usable ·))
    (resource provider version resource' provider' version' : String) :
    (ofDescription resource' d' provider' version').value.paths =
        (ofDescription resource d provider version).value.paths ∧
      (ofDescription resource' d' provider' version').value.tags =
        (ofDescription resource d provider version).value.tags := by
  have entered : references d' = references d := by
    rw [references_usable, same, ← references_usable]
  simp only [ofDescription_paths, ofDescription_tags, entered, and_self]

theorem mem_references {d : Description} {r : Reference} :
    r ∈ references d ↔ r.2 ∈ d.operations ∧ Denotes r.2.api r.1.1 r.1.2 := by
  obtain ⟨⟨m, path⟩, o⟩ := r
  simp only [references, reference?, List.mem_filterMap, Option.map_eq_some_iff, Prod.mk.injEq, ← request?_iff]
  constructor
  · rintro ⟨_, member, _, read, rfl, rfl⟩
    exact ⟨member, read⟩
  · rintro ⟨member, read⟩
    exact ⟨o, member, (m, path), read, rfl, rfl⟩

theorem ofDescription_rekeys {d : Description} (ordered : d.Ordered) (resource provider version : String) :
    Rekeys d (ofDescription resource d provider version).value ∧
      ∀ d' : Description, d'.operations.filter (Usable ·) = d.operations.filter (Usable ·) →
        (ofDescription resource d' provider version).value.paths =
            (ofDescription resource d provider version).value.paths ∧
          (ofDescription resource d' provider version).value.tags =
            (ofDescription resource d provider version).value.tags := by
  refine ⟨⟨?requested, ?described, ?increasing, ?tagged⟩, ?usable⟩
  case requested =>
    intro path name
    rw [ofDescription_found, Option.isSome_map, List.find?_isSome]
    simp only [mem_references, endpoint, Prod.mk.injEq, decide_eq_true_eq]
    constructor
    · rintro ⟨⟨⟨m, _⟩, o⟩, ⟨member, denotes⟩, rfl, rfl⟩
      exact ⟨m, rfl, o, member, denotes⟩
    · rintro ⟨m, rfl, o, member, denotes⟩
      exact ⟨((m, path), o), ⟨member, denotes⟩, rfl, rfl⟩
  case described =>
    intro path name o
    rw [ofDescription_found]
    constructor
    · intro found
      obtain ⟨r, first, rfl⟩ := Option.map_eq_some_iff.mp found
      have here := List.find?_some first
      simp only [endpoint, Prod.mk.injEq, decide_eq_true_eq] at here
      obtain ⟨rfl, rfl⟩ := here
      rw [find?_references] at first
      obtain ⟨e, first, same⟩ := Option.map_eq_some_iff.mp first
      refine ⟨r.1.1, e, rfl, (firstReference_iff ordered).mpr first, ?_⟩
      rw [← same]
      rfl
    · rintro ⟨m, e, rfl, first, rfl⟩
      rw [find?_references, (firstReference_iff ordered).mp first]
      rfl
  case increasing =>
    rw [ofDescription_tags]
    exact products_sorted SortedMap.sorted_empty _
  case tagged =>
    intro t
    rw [ofDescription_tags, products_listed]
    have none : t ∉ ({} : SortedMap String Unit).keys := nofun
    rw [or_iff_right none]
    refine and_congr_right fun _ => ?_
    constructor
    · rintro ⟨r, member, rfl⟩
      obtain ⟨member, denotes⟩ := mem_references.mp member
      exact ⟨r.2, member, ⟨_, _, denotes⟩, rfl⟩
    · rintro ⟨o, member, ⟨m, path, denotes⟩, rfl⟩
      exact ⟨((m, path), o), mem_references.mpr ⟨member, denotes⟩, rfl⟩
  case usable =>
    intro d' same
    exact ofDescription_usable same resource provider version resource provider version

-- Two operations name one request, one names none.
def trackers : Description where
  paths := ⟨[
    ("/tags", ⟨[
      ("delete", ⟨"untagTracker", "TMS", " delete  /v3/tags "⟩),
      ("put", ⟨"retagTracker", "TMS", "PUT /v3/tags /v4/tags"⟩)]⟩),
    ("/trackers", ⟨[
      ("delete", ⟨"clearTags", "CTS", "DELETE /v3/tags"⟩)]⟩)]⟩

theorem ofDescription_rekeys_trackers :
    trackers.Ordered ∧
      (ofDescription "cts_tracker" trackers "huaweicloud" "1.60.0").value.paths.operation? "/v3/tags" "delete" =
        some ⟨"TMS", "untagTracker"⟩ ∧
      "CTS" ∈ (ofDescription "cts_tracker" trackers "huaweicloud" "1.60.0").value.tags := by
  have ordered : trackers.Ordered := by
    refine ⟨by unfold SortedMap.Sorted; decide, List.forall_mem_cons.mpr ⟨?_, List.forall_mem_singleton.mpr ?_⟩⟩
    · unfold SortedMap.Sorted
      decide
    · exact List.pairwise_singleton _ _
  have rekeys := (ofDescription_rekeys ordered "cts_tracker" "huaweicloud" "1.60.0").1
  have first : FirstReference trackers .delete "/v3/tags" _ := (firstReference_iff ordered).mpr rfl
  have denotes : Denotes "DELETE /v3/tags" .delete "/v3/tags" := request?_iff.mp (by decide +kernel)
  refine ⟨ordered, ?_, ?_⟩
  · exact (rekeys.described _ _ _).mpr ⟨.delete, _, rfl, first, rfl⟩
  · refine (rekeys.tagged "CTS").mpr ⟨by decide, ⟨"clearTags", "CTS", "DELETE /v3/tags"⟩, ?_, ⟨_, _, denotes⟩, rfl⟩
    decide

end Document

end CallAtlas
