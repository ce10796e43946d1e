import CallAtlas.Proofs.Data.SortedMap
import CallAtlas.Proofs.Sdk.RequestShapes
import CallAtlas.Proofs.Sdk.Separation
import CallAtlas.Proofs.Sdk.UrlDemand
import CallAtlas.Proofs.Text.Calls
import Mathlib.Data.List.Nodup

namespace CallAtlas.Sdk.Rest

open CallAtlas.Text Resolving

-- The URLs of a package's builders, as they are found in a state.
def urlIn (tree : SourceTree) (dir : Path) (s : State) (builder : String) : Option String :=
  (firstExisting? tree dir urlFiles).bind fun p => answer (urlOf tree p builder) s

-- The endpoint of a request whose builder has a known URL.
def Gives (urls : String → Option String) (source : String) (r : Request) (e : Endpoint) : Prop :=
  e.method = r.method ∧ ∃ builder, NamesBuilder source r.source builder ∧ urls builder = some e.url

-- The endpoint of the last request of the first shape that has one.
def Direct (urls : String → Option String) (source : String) (e : Endpoint) : Prop :=
  ∃ shape requests, Shaped source shape requests ∧ ∃ earlier r later, requests = earlier ++ r :: later ∧
    Gives urls source r e ∧ ∀ other ∈ later, ∀ e', ¬ Gives urls source other e'

def Resolved (file : Go.SourceFile) (urls : String → Option String) (n : String) : Prop :=
  ∃ f ∈ file.functions, f.name = n ∧ ∃ e, Direct urls f.source e

inductive Entered (file : Go.SourceFile) (urls : String → Option String) : String → Endpoint → Prop
  | direct {f e} : f ∈ file.functions → Direct urls f.source e → Entered file urls f.name e
  | copied {f g e} : f ∈ file.functions → Unshaped f.source → g ∈ file.functions →
      LastCall (fun h => Resolved file urls (String.ofList h)) none f.source.toList g.name.toList →
      Direct urls g.source e → Entered file urls f.name e

section Functions

variable {urls : String → Option String} {source : String} {e : Endpoint}

theorem getLast?_filterMap_iff {f : α → Option β} {l : List α} {b : β} :
    (l.filterMap f).getLast? = some b ↔
      ∃ earlier a later, l = earlier ++ a :: later ∧ f a = some b ∧ ∀ x ∈ later, f x = none := by
  rw [List.getLast?_filterMap, List.findSome?_eq_some_iff]
  constructor
  · rintro ⟨later, a, earlier, split, given, none⟩
    refine ⟨earlier.reverse, a, later.reverse, ?_, given, fun x member => none x (List.mem_reverse.mp member)⟩
    rw [← List.reverse_reverse l, split]
    simp
  · rintro ⟨earlier, a, later, rfl, given, none⟩
    exact ⟨later.reverse, a, earlier.reverse, by simp, given, fun x member => none x (List.mem_reverse.mp member)⟩

def Request.endpoint? (urls : String → Option String) (source : String) (r : Request) : Option Endpoint := do
  let builder ← r.builder? source
  let url ← urls builder
  return ⟨url, r.method⟩

theorem endpoint?_iff {r : Request} : r.endpoint? urls source = some e ↔ Gives urls source r e := by
  simp only [Request.endpoint?, Gives, ← builder?_iff, Option.bind_eq_bind, Option.bind_eq_some_iff, Option.pure_def,
    Option.some.injEq]
  constructor
  · rintro ⟨builder, named, url, known, rfl⟩
    exact ⟨rfl, builder, named, known⟩
  · rintro ⟨method, builder, named, known⟩
    exact ⟨builder, named, e.url, known, by rw [← method]⟩

theorem endpoint?_none {r : Request} : r.endpoint? urls source = none ↔ ∀ e, ¬ Gives urls source r e := by
  simp only [Option.eq_none_iff_forall_ne_some, ne_eq, endpoint?_iff]

def direct? (urls : String → Option String) (source : String) : Option Endpoint :=
  (requests? source).bind fun requests => (requests.filterMap (·.endpoint? urls source)).getLast?

theorem direct?_iff : direct? urls source = some e ↔ Direct urls source e := by
  simp only [direct?, Direct, Option.bind_eq_some_iff, getLast?_filterMap_iff, endpoint?_iff, endpoint?_none]
  constructor
  · rintro ⟨requests, shown, last⟩
    obtain ⟨shape, shaped⟩ := requests?_some.mp shown
    exact ⟨shape, requests, shaped, last⟩
  · rintro ⟨shape, requests, shaped, last⟩
    exact ⟨requests, requests?_some.mpr ⟨shape, shaped⟩, last⟩

theorem Direct.shaped (direct : Direct urls source e) : ¬ Unshaped source := by
  obtain ⟨shape, requests, shaped, _⟩ := direct
  intro none
  have shown := requests?_some.mpr ⟨shape, shaped⟩
  rw [requests?_none.mpr none] at shown
  cases shown

end Functions

section Passes

variable {tree : SourceTree} {p : Path} {urls : String → Option String} {s : State}

-- Asking for one URL leaves the others as they are.
def Knows (tree : SourceTree) (p : Path) (urls : String → Option String) (s : State) : Prop :=
  ∀ b, Dotless b → answer (urlOf tree p b) s = urls b

theorem Knows.after_urlOf (knows : Knows tree p urls s) (builder : String) :
    Knows tree p urls (after (urlOf tree p builder) s) := by
  intro b name
  have still : opened tree p (after (urlOf tree p builder) s) = after (urlOf tree p builder) s :=
    if_pos (urlOf_marks builder)
  rw [← knows b name, (urlOf_exact tree p b _).1, (urlOf_exact tree p b s).1, still,
    (urlOf_exact tree p builder s).2]

theorem lastEndpoint_knows (source : String) {requests : List Request} (knows : Knows tree p urls s)
    (words : ∀ r ∈ requests, WordSource r.source) (found : Option Endpoint) :
    answer (lastEndpoint tree p source requests found) s =
        ((requests.filterMap (·.endpoint? urls source)).getLast?).or found ∧
      Knows tree p urls (after (lastEndpoint tree p source requests found) s) := by
  induction requests generalizing s found with
  | nil => exact ⟨rfl, knows⟩
  | cons r rest ih =>
    obtain ⟨word, others⟩ := List.forall_mem_cons.mp words
    rw [lastEndpoint]
    cases named : r.builder? source with
    | none =>
      have given : r.endpoint? urls source = none := by simp [Request.endpoint?, named]
      rw [List.filterMap_cons_none given]
      exact ih knows others found
    | some builder =>
      rw [answer_bind, after_bind, knows builder (builder?_dotless word named)]
      have later := ih (knows.after_urlOf builder) others
      cases known : urls builder with
      | none =>
        have given : r.endpoint? urls source = none := by simp [Request.endpoint?, named, known]
        rw [List.filterMap_cons_none given]
        exact later found
      | some url =>
        have given : r.endpoint? urls source = some ⟨url, r.method⟩ := by
          simp [Request.endpoint?, named, known]
        rw [List.filterMap_cons_some given, List.getLast?_cons]
        refine ⟨(later _).1.trans ?_, (later _).2⟩
        cases (rest.filterMap (·.endpoint? urls source)).getLast? <;> rfl

-- The functions that one of the passes has an endpoint for, with it.
def entriesOf (endpoint? : String → Option Endpoint) (functions : List Go.Function) :
    List (String × Endpoint) :=
  functions.filterMap fun f => (endpoint? f.source).map (f.name, ·)

theorem directEndpoints_knows {functions : List Go.Function} (knows : Knows tree p urls s)
    (table : EndpointTable) :
    answer (directEndpoints tree p functions table) s =
      ((entriesOf (direct? urls) functions).foldl (fun m e => m.insert e.1 e.2) table,
        functions.filter fun f => (requests? f.source).isNone) := by
  induction functions generalizing s table with
  | nil => rfl
  | cons f rest ih =>
    rw [directEndpoints, entriesOf, List.filterMap_cons, List.filter_cons, direct?]
    cases shown : requests? f.source with
    | none => simp only [answer_bind, answer_pure, ih knows table]; rfl
    | some requests =>
      obtain ⟨answered, later⟩ := lastEndpoint_knows f.source knows (requests?_sources shown) none
      rw [Option.or_none] at answered
      simp only [answer_bind, answered, Option.bind_some]
      cases (requests.filterMap (·.endpoint? urls f.source)).getLast? with
      | none => exact ih later table
      | some e => exact ih later _

end Passes

section Copies

variable {table direct : EndpointTable} {source : String} {e : Endpoint}

def copied? (calls : Pattern) (table : EndpointTable) (source : String) : Option Endpoint :=
  ((calls.findAll source).filterMap fun m => table.get? (m.group 0)).getLast?

-- What is copied on the way is not copied again: no name of a function that is left is searched for.
theorem copyEndpoints_exact {calls : Pattern} {functions : List Go.Function}
    (known : ∀ source, ∀ m ∈ calls.findAll source, m.group 0 ∈ direct.keys)
    (new : ∀ f ∈ functions, f.name ∉ direct.keys)
    (agree : ∀ n ∈ direct.keys, table.get? n = direct.get? n) :
    copyEndpoints calls functions table =
      (entriesOf (copied? calls direct) functions).foldl (fun m e => m.insert e.1 e.2) table := by
  induction functions generalizing table with
  | nil => rfl
  | cons f rest ih =>
    obtain ⟨newHere, new⟩ := List.forall_mem_cons.mp new
    have same : ((calls.findAll f.source).filterMap fun m => table.get? (m.group 0)).getLast? =
        copied? calls direct f.source := by
      rw [copied?, List.filterMap_congr fun m member => agree _ (known f.source m member)]
    rw [copyEndpoints, same, entriesOf, List.filterMap_cons]
    cases copied? calls direct f.source with
    | none => exact ih new agree
    | some e =>
      refine ih new fun n member => ?_
      have other : n ≠ f.name := fun here => newHere (here ▸ member)
      rw [SortedMap.get?_insert_of_ne table e other]
      exact agree n member

theorem getLast?_filterMap_known {f : α → Option β} {l : List α} (known : ∀ a ∈ l, (f a).isSome = true) :
    (l.filterMap f).getLast? = l.getLast?.bind f := by
  rw [List.getLast?_filterMap, List.getLast?_eq_head?_reverse]
  cases reversed : l.reverse with
  | nil => rfl
  | cons a rest =>
    obtain ⟨b, given⟩ := Option.isSome_iff_exists.mp (known a (List.mem_reverse.mp (reversed ▸ List.mem_cons_self)))
    simp [given]

theorem localCalls_known {m : Match} (bare : ∀ n ∈ table.keys, '(' ∉ n.toList)
    (found : m ∈ (localCalls table).findAll source) : m.group 0 ∈ table.keys := by
  obtain ⟨place, before, rest, here⟩ := Pattern.mem_findAll_matched found
  have bareNames : ∀ h ∈ table.keys.map String.toList, '(' ∉ h := by simpa using bare
  obtain ⟨h, member, _, _, _, rfl⟩ := (callsOf_matchHere bareNames).mp here
  obtain ⟨n, inside, rfl⟩ := List.mem_map.mp member
  simpa [Match.group] using inside

theorem mem_names {h : List Char} : h ∈ table.keys.map String.toList ↔ String.ofList h ∈ table.keys := by
  rw [List.mem_map]
  constructor
  · rintro ⟨n, member, rfl⟩
    simpa using member
  · exact fun member => ⟨_, member, String.toList_ofList⟩

theorem copied?_iff (bare : ∀ n ∈ table.keys, '(' ∉ n.toList) :
    copied? (localCalls table) table source = some e ↔
      ∃ n, LastCall (fun h => String.ofList h ∈ table.keys) none source.toList n.toList ∧
        table.get? n = some e := by
  have bareNames : ∀ h ∈ table.keys.map String.toList, '(' ∉ h := by simpa using bare
  have last := (callsOf_last bareNames source.toList 0 none).1
  have known : ∀ m ∈ (localCalls table).findAll source, (table.get? (m.group 0)).isSome = true :=
    fun m found => SortedMap.isSome_get?.mpr (localCalls_known bare found)
  have same : ∀ h, LastCall (· ∈ table.keys.map String.toList) none source.toList h ↔
      LastCall (fun h => String.ofList h ∈ table.keys) none source.toList h := by
    intro h
    simp only [mem_names]
  rw [copied?, getLast?_filterMap_known known, Option.bind_eq_some_iff]
  constructor
  · rintro ⟨m, latest, given⟩
    refine ⟨m.group 0, (same _).mp ((last _).mpr ⟨m, latest, String.ofList_toList.symm⟩), given⟩
  · rintro ⟨n, latest, given⟩
    obtain ⟨m, found, name⟩ := (last _).mp ((same _).mpr latest)
    rw [String.ofList_toList] at name
    exact ⟨m, found, name ▸ given⟩

end Copies

section Tables

variable {tree : SourceTree} {dir requestPath urlPath : Path} {s : State} {file file' : Go.SourceFile}
  {source : String} {functions : List Go.Function} {urls : String → Option String} {n : String} {e : Endpoint}

theorem mem_entriesOf {endpoint? : String → Option Endpoint} :
    (n, e) ∈ entriesOf endpoint? functions ↔
      ∃ f ∈ functions, f.name = n ∧ endpoint? f.source = some e :=
  SortedMap.mem_named

theorem entriesOf_names (endpoint? : String → Option Endpoint) (functions : List Go.Function) :
    ((entriesOf endpoint? functions).map (·.1)).Sublist (functions.map (·.name)) := by
  refine SortedMap.names_sublist (fun f entry made => ?_) functions
  obtain ⟨e, _, rfl⟩ := Option.map_eq_some_iff.mp made
  rfl

theorem get?_entriesOf (distinct : (functions.map (·.name)).Nodup) (endpoint? : String → Option Endpoint)
    (table : EndpointTable) :
    ((entriesOf endpoint? functions).foldl (fun m e => m.insert e.1 e.2) table).get? n = some e ↔
      (∃ f ∈ functions, f.name = n ∧ endpoint? f.source = some e) ∨
        table.get? n = some e ∧ ∀ f ∈ functions, f.name = n → endpoint? f.source = none := by
  have names := (entriesOf_names endpoint? functions).nodup distinct
  have found : ∀ e, (⟨entriesOf endpoint? functions⟩ : EndpointTable).get? n = some e ↔
      ∃ f ∈ functions, f.name = n ∧ endpoint? f.source = some e :=
    fun e => (SortedMap.get?_eq_some names).trans mem_entriesOf
  rw [SortedMap.get?_foldl_insert names, Option.or_eq_some_iff, found, Option.eq_none_iff_forall_ne_some]
  refine or_congr_right ?_
  rw [and_comm]
  refine and_congr_right fun _ => ?_
  constructor
  · intro none f member name
    rw [Option.eq_none_iff_forall_ne_some]
    exact fun v given => none v ((found v).mpr ⟨f, member, name, given⟩)
  · intro none v given
    obtain ⟨f, member, name, given⟩ := (found v).mp given
    rw [none f member name] at given
    cases given

-- The table after the first pass, and the functions that are left for the second.
def directTable (urls : String → Option String) (functions : List Go.Function) : EndpointTable :=
  (entriesOf (direct? urls) functions).foldl (fun m e => m.insert e.1 e.2) {}

def leftOver (functions : List Go.Function) : List Go.Function :=
  functions.filter fun f => (requests? f.source).isNone

theorem mem_leftOver {f : Go.Function} : f ∈ leftOver functions ↔ f ∈ functions ∧ Unshaped f.source := by
  rw [leftOver, List.mem_filter, Option.isNone_iff_eq_none, requests?_none]

section FirstPass

variable (distinct : (file.functions.map (·.name)).Nodup)

include distinct

theorem directTable_get? : (directTable urls file.functions).get? n = some e ↔
    ∃ f ∈ file.functions, f.name = n ∧ Direct urls f.source e := by
  rw [directTable, get?_entriesOf distinct]
  simp only [direct?_iff]
  refine or_iff_left ?_
  rintro ⟨stored, _⟩
  cases stored

theorem directTable_keys : n ∈ (directTable urls file.functions).keys ↔ Resolved file urls n := by
  rw [← SortedMap.isSome_get?, Option.isSome_iff_exists]
  simp only [directTable_get? distinct, Resolved]
  constructor
  · rintro ⟨e, f, member, name, given⟩
    exact ⟨f, member, name, e, given⟩
  · rintro ⟨f, member, name, e, given⟩
    exact ⟨e, f, member, name, given⟩

theorem leftOver_new :
    ∀ f ∈ leftOver file.functions, f.name ∉ (directTable urls file.functions).keys := by
  intro f member isKey
  obtain ⟨inside, unshaped⟩ := mem_leftOver.mp member
  obtain ⟨g, inside', name, e, given⟩ := (directTable_keys distinct).mp isKey
  rw [List.inj_on_of_nodup_map distinct inside' inside name] at given
  exact given.shaped unshaped

-- Both passes, with the functions that the first one leaves.
theorem passes_exact (bare : ∀ f ∈ file.functions, '(' ∉ f.name.toList) :
    (copyEndpoints (localCalls (directTable urls file.functions)) (leftOver file.functions)
        (directTable urls file.functions)).get? n = some e ↔ Entered file urls n e := by
  have bareKeys : ∀ n ∈ (directTable urls file.functions).keys, '(' ∉ n.toList := by
    intro n isKey
    obtain ⟨f, inside, rfl, _⟩ := (directTable_keys distinct).mp isKey
    exact bare f inside
  have new := @leftOver_new file urls distinct
  have leftDistinct : ((leftOver file.functions).map (·.name)).Nodup :=
    (List.filter_sublist.map _).nodup distinct
  rw [copyEndpoints_exact (fun source m => localCalls_known bareKeys) new fun _ _ => rfl,
    get?_entriesOf leftDistinct]
  simp only [copied?_iff bareKeys, directTable_get? distinct, directTable_keys distinct]
  constructor
  · rintro (⟨f, member, rfl, m, last, g, inside', rfl, given⟩ | ⟨⟨f, inside, rfl, given⟩, _⟩)
    · obtain ⟨inside, unshaped⟩ := mem_leftOver.mp member
      exact .copied inside unshaped inside' last given
    · exact .direct inside given
  · rintro (⟨inside, given⟩ | ⟨inside, unshaped, inside', last, given⟩)
    · refine .inr ⟨⟨_, inside, rfl, given⟩, fun f member name => ?_⟩
      have isKey := (directTable_keys distinct).mpr ⟨_, inside, name.symm, _, given⟩
      exact absurd isKey (new f member)
    · exact .inl ⟨_, mem_leftOver.mpr ⟨inside, unshaped⟩, rfl, _, last, _, inside', rfl, given⟩

-- A function that calls neither a verb nor the pager is entered if it calls one that is.
theorem unshaped_entered (bare : ∀ f ∈ file.functions, '(' ∉ f.name.toList) {f : Go.Function}
    (member : f ∈ file.functions) (unshaped : Unshaped f.source) :
    (∃ e, Entered file urls f.name e) ↔
      ∃ h rest, Resolved file urls (String.ofList h) ∧ Calls none f.source.toList h rest := by
  constructor
  · rintro ⟨e, entered⟩
    obtain ⟨n, name⟩ : ∃ n, n = f.name := ⟨_, rfl⟩
    rw [← name] at entered
    cases entered with
    | direct inside given =>
      rw [List.inj_on_of_nodup_map distinct inside member name] at given
      exact absurd unshaped given.shaped
    | copied inside _ _ last _ =>
      rw [List.inj_on_of_nodup_map distinct inside member name] at last
      obtain ⟨known, rest, called, _⟩ := last
      exact ⟨_, rest, known, called⟩
  · rintro ⟨h, rest, known, called⟩
    have names : ∀ h, h ∈ (directTable urls file.functions).keys.map String.toList ↔
        Resolved file urls (String.ofList h) :=
      fun h => mem_names.trans (directTable_keys distinct)
    have bareNames : ∀ h ∈ (directTable urls file.functions).keys.map String.toList, '(' ∉ h := by
      intro h isName
      obtain ⟨g, inside, name, _⟩ := (names h).mp isName
      rw [← String.toList_ofList (l := h), ← name]
      exact bare g inside
    obtain ⟨last, isLast⟩ := callsOf_exists bareNames ((names h).mpr known) called
    simp only [names] at isLast
    obtain ⟨g, inside, name, e, given⟩ := isLast.1
    have toList : g.name.toList = last := by rw [name, String.toList_ofList]
    exact ⟨e, .copied member unshaped inside (toList ▸ isLast) given⟩

end FirstPass

theorem directTable_sorted (urls : String → Option String) (functions : List Go.Function) :
    (directTable urls functions).Sorted :=
  SortedMap.sorted_empty.foldl_insert _

theorem copyEndpoints_sorted {table : EndpointTable} (sorted : table.Sorted) (calls : Pattern)
    (functions : List Go.Function) : (copyEndpoints calls functions table).Sorted := by
  induction functions generalizing table with
  | nil => exact sorted
  | cons f rest ih =>
    simp only [copyEndpoints]
    split
    · exact ih (sorted.alter f.name _)
    · exact ih sorted

theorem parsed_bare (parsed : answer (parseFile tree requestPath) s = some file) :
    ∀ f ∈ file.functions, '(' ∉ f.name.toList := by
  intro f member paren
  have fits := List.all_eq_true.mp (parseFile_words parsed f member) '(' paren
  cases fits

-- The package of a request file that has been parsed.
theorem resolvePackage_table (requestFound : firstExisting? tree dir requestFiles = some requestPath)
    (urlFound : firstExisting? tree dir urlFiles = some urlPath)
    (parsed : answer (parseFile tree requestPath) s = some file)
    (distinct : (file.functions.map (·.name)).Nodup) :
    ∃ table, answer (resolvePackage tree dir) s = some table ∧ table.Sorted ∧
      ∀ n e, table.get? n = some e ↔ Entered file (urlIn tree dir s) n e := by
  have knows : Knows tree urlPath (urlIn tree dir s) (after (parseFile tree requestPath) s) := by
    intro b name
    have alike : Alike urlPath { s with reads := s.reads ++ [requestPath] } s := ⟨rfl, fun _ _ => rfl⟩
    rw [after_parseFile, urlIn, urlFound, Option.bind_some]
    exact (urlOf_steady tree name _ _ alike).1
  refine ⟨_, ?_, copyEndpoints_sorted (directTable_sorted (urlIn tree dir s) file.functions) _ _,
    fun n e => passes_exact distinct (parsed_bare parsed)⟩
  unfold resolvePackage
  simp only [requestFound, urlFound, answer_bind, parsed, directEndpoints_knows knows {}]
  rfl

theorem Direct.known (direct : Direct urls source e) : ∃ b, urls b = some e.url := by
  obtain ⟨_, _, _, _, _, _, _, ⟨_, b, _, known⟩, _⟩ := direct
  exact ⟨b, known⟩

theorem Entered.known (entered : Entered file urls n e) : ∃ b, urls b = some e.url := by
  cases entered with
  | direct _ given => exact given.known
  | copied _ _ _ _ given => exact given.known

theorem Resolved.permuted (permuted : file.Permuted file') (resolved : Resolved file urls n) :
    Resolved file' urls n := by
  obtain ⟨f, member, name, e, given⟩ := resolved
  obtain ⟨g, member, same, source⟩ := permuted.counterpart member
  exact ⟨g, member, same.trans name, e, source ▸ given⟩

theorem Entered.permuted (permuted : file.Permuted file') (entered : Entered file urls n e) :
    Entered file' urls n e := by
  have resolved : ∀ n, Resolved file urls n ↔ Resolved file' urls n :=
    fun n => ⟨.permuted permuted, .permuted permuted.symm⟩
  cases entered with
  | direct member given =>
    obtain ⟨g, member, name, source⟩ := permuted.counterpart member
    exact name ▸ .direct member (source ▸ given)
  | copied member unshaped called last given =>
    obtain ⟨f, member, name, source⟩ := permuted.counterpart member
    obtain ⟨g, called, name', source'⟩ := permuted.counterpart called
    simp only [resolved, ← source, ← name'] at last
    exact name ▸ .copied member (source ▸ unshaped) called last (source' ▸ given)

section Rewritten

variable {tree' : SourceTree} (files : ∀ p, tree'.isFile p = tree.isFile p)
include files

theorem firstExisting?_rewritten (names : List String) :
    firstExisting? tree' dir names = firstExisting? tree dir names := by
  unfold firstExisting?
  rw [funext files]

theorem urlIn_rewritten (elsewhere : ∀ p, p.same requestPath = false → tree'.read? p = tree.read? p)
    (requestFound : firstExisting? tree dir requestFiles = some requestPath) :
    urlIn tree' dir s = urlIn tree dir s := by
  funext b
  rw [urlIn, urlIn, firstExisting?_rewritten files]
  cases urlFound : firstExisting? tree dir urlFiles with
  | none => rfl
  | some urlPath =>
    have apart : urlPath.same requestPath = false := by
      obtain ⟨m, request, rfl⟩ := firstExisting?_join requestFound
      obtain ⟨n, url, rfl⟩ := firstExisting?_join urlFound
      refine beq_eq_false_iff_ne.mpr fun same => ?_
      obtain ⟨_, rfl⟩ := Path.join_name_inj (Vendor.urlFile_isName n url) (requestFile_isName m request) same
      exact requestFile_not_url n request url
    simp only [Option.bind_some, urlOf_congr (elsewhere urlPath apart)]

end Rewritten

theorem resolvePackage_urlless (urlMissing : firstExisting? tree dir urlFiles = none) :
    answer (resolvePackage tree dir) s = none := by
  unfold resolvePackage
  rw [urlMissing]
  cases firstExisting? tree dir requestFiles <;> rfl

-- The table of a package is what its request functions say, in whatever order they stand.
theorem request_table_exact (requestFound : firstExisting? tree dir requestFiles = some requestPath)
    (parsed : answer (parseFile tree requestPath) s = some file)
    (distinct : (file.functions.map (·.name)).Nodup) :
    (∀ n e, (answer (resolvePackage tree dir) s).bind (·.get? n) = some e ↔
      Entered file (urlIn tree dir s) n e) ∧
    (∀ f ∈ file.functions, Unshaped f.source →
      (((answer (resolvePackage tree dir) s).bind (·.get? f.name)).isSome = true ↔
        ∃ h rest, Resolved file (urlIn tree dir s) (String.ofList h) ∧
          Calls none f.source.toList h rest)) ∧
    ∀ tree' file', (∀ p, tree'.isFile p = tree.isFile p) →
      (∀ p, p.same requestPath = false → tree'.read? p = tree.read? p) →
      answer (parseFile tree' requestPath) s = some file' → file.Permuted file' →
      answer (resolvePackage tree' dir) s = answer (resolvePackage tree dir) s := by
  have entered : ∀ n e, (answer (resolvePackage tree dir) s).bind (·.get? n) = some e ↔
      Entered file (urlIn tree dir s) n e := by
    intro n e
    cases urlFound : firstExisting? tree dir urlFiles with
    | none =>
      rw [resolvePackage_urlless urlFound]
      refine ⟨nofun, fun entered => ?_⟩
      obtain ⟨b, known⟩ := entered.known
      rw [urlIn, urlFound] at known
      cases known
    | some urlPath =>
      obtain ⟨table, answered, _, entered⟩ := resolvePackage_table requestFound urlFound parsed distinct
      rw [answered]
      exact entered n e
  refine ⟨entered, fun f member unshaped => ?_, fun tree' file' files elsewhere parsed' permuted => ?_⟩
  · rw [Option.isSome_iff_exists, ← unshaped_entered distinct (parsed_bare parsed) member unshaped]
    exact exists_congr fun e => entered f.name e
  · have requestFound' := @firstExisting?_rewritten tree dir tree' files requestFiles
    have urlFound' := @firstExisting?_rewritten tree dir tree' files urlFiles
    cases urlFound : firstExisting? tree dir urlFiles with
    | none => rw [resolvePackage_urlless urlFound, resolvePackage_urlless (urlFound'.trans urlFound)]
    | some urlPath =>
      obtain ⟨table, answered, sorted, entered⟩ :=
        resolvePackage_table requestFound urlFound parsed distinct
      obtain ⟨table', answered', sorted', entered'⟩ := resolvePackage_table
        (requestFound'.trans requestFound) (urlFound'.trans urlFound) parsed' (permuted.distinct distinct)
      rw [urlIn_rewritten files elsewhere requestFound] at entered'
      rw [answered, answered', sorted'.ext sorted fun n => Option.ext fun e => ?_]
      rw [entered', entered]
      exact ⟨.permuted permuted.symm, .permuted permuted⟩

end Tables

def requests : Path := ⟨"p/requests.go"⟩

-- A package with a URL file, and a request file with some functions, as they are declared.
def requesting (functions : List String) : SourceTree :=
  .ofFiles
    [(requests, .text (String.join functions)),
     (⟨"p/urls.go"⟩, .text "func u()\x7bx.ServiceURL(\"ports\")\x7d")]

def getter : String := "func Get()\x7bc.Get(u())\x7d\n"

def wrapper : String := "func A()\x7bGet()\x7d\n"

-- The URL of the request stands in a variable.
def poster : String := "func P()\x7bv:=u()\nc.Put(v,b)\x7d\n"

def declared : List String := [wrapper, poster, getter]

theorem requesting_parsed :
    (answer (parseFile (requesting declared) requests) {}).map (·.functions.map fun f => (f.name, f.source)) =
      some [("A", "func A()\x7bGet()\x7d"), ("P", "func P()\x7bv:=u()\nc.Put(v,b)\x7d"),
        ("Get", "func Get()\x7bc.Get(u())\x7d")] := by
  decide +kernel

theorem requesting_parsed_reversed :
    (answer (parseFile (requesting declared.reverse) requests) {}).map
        (·.functions.map fun f => (f.name, f.source)) =
      some [("Get", "func Get()\x7bc.Get(u())\x7d"), ("P", "func P()\x7bv:=u()\nc.Put(v,b)\x7d"),
        ("A", "func A()\x7bGet()\x7d")] := by
  decide +kernel

theorem request_table_exact_ports :
    ∃ file, answer (parseFile (requesting declared) requests) {} = some file ∧
      Entered file (urlIn (requesting declared) ⟨"p"⟩ {}) "A" ⟨"ports", .get⟩ ∧
      Entered file (urlIn (requesting declared) ⟨"p"⟩ {}) "P" ⟨"ports", .put⟩ ∧
      answer (resolvePackage (requesting declared.reverse) ⟨"p"⟩) {} =
        answer (resolvePackage (requesting declared) ⟨"p"⟩) {} := by
  obtain ⟨file, parsed, functions⟩ := Option.map_eq_some_iff.mp requesting_parsed
  obtain ⟨file', parsed', functions'⟩ := Option.map_eq_some_iff.mp requesting_parsed_reversed
  have distinct : (file.functions.map (·.name)).Nodup := by
    have names := congrArg (List.map Prod.fst) functions
    rw [List.map_map] at names
    exact names ▸ (by decide)
  have found : firstExisting? (requesting declared) ⟨"p"⟩ requestFiles = some requests := by
    decide +kernel
  have table : (answer (resolvePackage (requesting declared) ⟨"p"⟩) {}).map (·.entries) =
      some [("A", ⟨"ports", .get⟩), ("Get", ⟨"ports", .get⟩), ("P", ⟨"ports", .put⟩)] := by decide +kernel
  have elsewhere : ∀ p : Path, p.same requests = false →
      (requesting declared.reverse).read? p = (requesting declared).read? p := by
    intro p apart
    have other : (requests.components == p.components) = false := by
      rw [Bool.eq_false_iff]
      exact fun same => by simp [Path.same, beq_iff_eq.mp same] at apart
    simp [requesting, SourceTree.ofFiles, List.find?_cons, other]
  obtain ⟨⟨entries⟩, answered, shown⟩ := Option.map_eq_some_iff.mp table
  cases shown
  obtain ⟨entered, _, order⟩ := request_table_exact found parsed distinct
  rw [answered] at entered
  refine ⟨file, parsed, (entered _ _).mp (by decide), (entered _ _).mp (by decide),
    order _ file' (fun _ => rfl) elsewhere parsed' ?_⟩
  unfold Go.SourceFile.Permuted
  rw [functions, functions']
  exact (List.reverse_perm _).symm

end CallAtlas.Sdk.Rest
