import CallAtlas.Proofs.Sdk.Keys
import Mathlib.Data.Finset.Card

namespace CallAtlas.Sdk.Cache

variable {α : Type}

inductive Operation where
  | markPackage (dir : Path)
  | markUrlFile (file : Path)
  | insertEndpoint (dir : Path) (function : String) (e : Endpoint)
  | insertUrl (file : Path) (function url : String)
  | lookUpEndpoint (dir : Path) (function : String)
  | lookUpUrl (file : Path) (function : String)
  | readStats
  deriving Repr, DecidableEq

namespace Operation

def Undotted : Operation → Prop
  | insertEndpoint _ f _ | insertUrl _ f _ | lookUpEndpoint _ f | lookUpUrl _ f => Dotless f
  | markPackage _ | markUrlFile _ | readStats => True

def package? : Operation → Option Path
  | markPackage dir => some dir
  | _ => none

def urlFile? : Operation → Option Path
  | markUrlFile file => some file
  | _ => none

def endpointEntry? : Operation → Option ((Path × String) × Endpoint)
  | insertEndpoint dir f e => some ((dir, f), e)
  | _ => none

def urlEntry? : Operation → Option ((Path × String) × String)
  | insertUrl file f url => some ((file, f), url)
  | _ => none

def looksUpEndpoint : Operation → Bool
  | lookUpEndpoint _ _ => true
  | _ => false

end Operation

-- Looking up a URL and reading the counts change nothing.
def perform (c : Cache) : Operation → Cache
  | .markPackage dir => (c.markPackage dir).1
  | .markUrlFile file => (c.markUrlFile file).1
  | .insertEndpoint dir f e => c.insertEndpoint dir f e
  | .insertUrl file f url => c.insertUrl file f url
  | .lookUpEndpoint dir f => (c.endpoint? dir f).1
  | .lookUpUrl _ _ | .readStats => c

def after (past : List Operation) : Cache := past.foldl perform {}

-- The endpoints that a history inserts, in order, each with the spelling of its directory and its function.
def endpointsIn (past : List Operation) : List ((Path × String) × Endpoint) :=
  past.filterMap Operation.endpointEntry?

def urlsIn (past : List Operation) : List ((Path × String) × String) := past.filterMap Operation.urlEntry?

-- The first value that is entered for a spelling and a name.
def FirstEntry (entries : List ((Path × String) × α)) (p : Path) (f : String) (v : α) : Prop :=
  ∃ earlier later, entries = earlier ++ ((p, f), v) :: later ∧ ∀ other ∈ earlier, other.1 ≠ (p, f)

-- How many pairs of a spelling and a name have a value.
def pairs (entries : List ((Path × String) × α)) : Nat := (entries.map Prod.fst).toFinset.card

-- How many places some paths name.
def places (paths : List Path) : Nat := (paths.map Path.components).toFinset.card

def statsOf (past : List Operation) : Stats where
  packages := places (past.filterMap Operation.package?)
  urlFiles := places (past.filterMap Operation.urlFile?)
  endpoints := pairs (endpointsIn past)
  lookups := past.countP Operation.looksUpEndpoint

theorem firstEntry_iff {entries : List ((Path × String) × α)} {p : Path} {f : String} {v : α} :
    FirstEntry entries p f v ↔ entries.lookup (p, f) = some v := by
  rw [List.lookup_eq_some_iff]
  simp only [FirstEntry, bne_iff_ne, ne_eq, eq_comm (a := (p, f))]

theorem lookup_isSome {entries : List ((Path × String) × α)} {pair : Path × String} :
    (entries.lookup pair).isSome = true ↔ pair ∈ entries.map Prod.fst := by
  rw [← not_iff_not, Bool.not_eq_true, Option.isSome_eq_false_iff, Option.isNone_iff_eq_none,
    List.lookup_eq_none_iff]
  constructor
  · intro apart inside
    obtain ⟨e, member, rfl⟩ := List.mem_map.mp inside
    simpa using apart e member
  · intro outside e member
    refine bne_iff_ne.mpr ?_
    rintro rfl
    exact outside (List.mem_map_of_mem member)

def enter (table : List (String × α)) (e : (Path × String) × α) : List (String × α) :=
  addNew table (key e.1.1 e.1.2) e.2

-- A flat table that stands for some entries.
structure Holds (entries : List ((Path × String) × α)) (table : List (String × α)) : Prop where
  answers : ∀ p f, Dotless f → table.lookup (key p f) = entries.lookup (p, f)
  size : table.length = pairs entries

-- A pair has a key of its own, so its first value stays and those of other pairs are as before.
theorem Holds.entered {entries : List ((Path × String) × α)} {table : List (String × α)}
    (holds : Holds entries table) {e : (Path × String) × α} (name : Dotless e.1.2) :
    Holds (entries ++ [e]) (enter table e) := by
  obtain ⟨⟨p, f⟩, v⟩ := e
  refine ⟨?_, ?_⟩
  · intro q g other
    rw [enter, lookup_addNew, List.lookup_append]
    by_cases same : key q g = key p f
    · obtain ⟨rfl, rfl⟩ := key_inj other name same
      rw [if_pos rfl, holds.answers q g name]
      simp
    · have apart : (q, g) ≠ (p, f) := by
        intro pair
        cases pair
        exact same rfl
      rw [if_neg same, holds.answers q g other]
      simp [List.lookup_cons, beq_eq_false_iff_ne.mpr apart]
  · have present : (table.lookup (key p f)).isSome = true ↔ (p, f) ∈ (entries.map Prod.fst).toFinset := by
      rw [holds.answers p f name, lookup_isSome, List.mem_toFinset]
    have all : ((entries ++ [((p, f), v)]).map Prod.fst).toFinset =
        insert (p, f) (entries.map Prod.fst).toFinset := by
      ext pair
      simp
    rw [pairs, all]
    unfold enter addNew
    split
    · rename_i old
      rw [Finset.insert_eq_of_mem (present.mp old), holds.size, pairs]
    · rename_i new
      rw [Finset.card_insert_of_notMem (mt present.mpr new), List.length_append, holds.size, pairs,
        List.length_singleton]

theorem foldl_enter (entries : List ((Path × String) × α)) (names : ∀ e ∈ entries, Dotless e.1.2) :
    Holds entries (entries.foldl enter []) := by
  induction entries using List.reverseRecOn with
  | nil => exact ⟨fun _ _ _ => rfl, rfl⟩
  | append_singleton entries e ih =>
    obtain ⟨earlier, name⟩ := List.forall_mem_append.mp names
    rw [List.foldl_append]
    exact (ih earlier).entered (name e (List.mem_singleton_self e))

-- Marked paths that stand for the places of some paths.
structure Marks (paths marked : List Path) : Prop where
  known : ∀ p, marked.any (·.same p) = true ↔ p.components ∈ (paths.map Path.components).toFinset
  size : marked.length = places paths

def addMark (marked : List Path) (p : Path) : List Path := (mark marked p).1

-- A mark is added for a place that none of the paths has named before.
theorem Marks.marked {paths marked : List Path} (marks : Marks paths marked) (p : Path) :
    Marks (paths ++ [p]) (addMark marked p) := by
  have all : ((paths ++ [p]).map Path.components).toFinset =
      insert p.components (paths.map Path.components).toFinset := by
    ext place
    simp
  cases old : marked.any (·.same p) with
  | true =>
    have named := (marks.known p).mp old
    rw [addMark, mark_old old]
    refine ⟨?_, ?_⟩
    · intro q
      rw [all, Finset.insert_eq_of_mem named, marks.known]
    · rw [places, all, Finset.insert_eq_of_mem named, marks.size, places]
  | false =>
    have unnamed : p.components ∉ (paths.map Path.components).toFinset := by
      rw [← marks.known, old]
      exact Bool.false_ne_true
    rw [addMark, mark_new old]
    refine ⟨?_, ?_⟩
    · intro q
      have here : [p].any (·.same q) = true ↔ q.components = p.components := by
        rw [List.any_cons, List.any_nil, Bool.or_false, Path.same, beq_iff_eq, eq_comm]
      rw [all, Finset.mem_insert, ← marks.known, List.any_append, Bool.or_eq_true, here, or_comm]
    · rw [places, all, Finset.card_insert_of_notMem unnamed, List.length_append, marks.size, places,
        List.length_singleton]

theorem foldl_mark (paths : List Path) : Marks paths (paths.foldl addMark []) := by
  induction paths using List.reverseRecOn with
  | nil => exact ⟨fun _ => by simp, rfl⟩
  | append_singleton paths p ih =>
    rw [List.foldl_append]
    exact ih.marked p

-- A part of the cache to which one kind of operations adds.
def Gathers {β γ : Type} (part : Cache → β) (read : Operation → Option γ) (add : β → γ → β) : Prop :=
  ∀ c o, part (perform c o) = (read o).elim (part c) (add (part c))

theorem endpoints_gather : Gathers Cache.endpoints Operation.endpointEntry? enter := by
  intro c o
  cases o <;> rfl

theorem urls_gather : Gathers Cache.urls Operation.urlEntry? enter := by
  intro c o
  cases o <;> rfl

theorem packages_gather : Gathers Cache.packages Operation.package? addMark := by
  intro c o
  cases o <;> rfl

theorem urlFiles_gather : Gathers Cache.urlFiles Operation.urlFile? addMark := by
  intro c o
  cases o <;> rfl

theorem Gathers.after {β γ : Type} {part : Cache → β} {read : Operation → Option γ} {add : β → γ → β}
    (gathers : Gathers part read add) (past : List Operation) :
    part (after past) = (past.filterMap read).foldl add (part {}) := by
  induction past using List.reverseRecOn with
  | nil => rfl
  | append_singleton past o ih =>
    rw [Cache.after, List.foldl_append, List.foldl_cons, List.foldl_nil, gathers, List.filterMap_append,
      List.foldl_append, ← ih]
    cases reads : read o <;> simp [reads, Cache.after]

theorem after_lookups (past : List Operation) :
    (after past).lookups = past.countP Operation.looksUpEndpoint := by
  induction past using List.reverseRecOn with
  | nil => rfl
  | append_singleton past o ih =>
    rw [List.countP_append, ← ih, after, List.foldl_append]
    cases o <;> rfl

variable {past : List Operation}

-- What is entered through operations without dotted names is held, whichever table it goes to.
theorem Gathers.held {part : Cache → List (String × α)} {read : Operation → Option ((Path × String) × α)}
    (gathers : Gathers part read enter) (empty : part {} = [])
    (named : ∀ o e, read o = some e → o.Undotted → Dotless e.1.2) (names : ∀ o ∈ past, o.Undotted) :
    Holds (past.filterMap read) (part (Cache.after past)) := by
  rw [gathers.after, empty]
  refine foldl_enter _ ?_
  intro e member
  obtain ⟨o, done, reads⟩ := List.mem_filterMap.mp member
  exact named o e reads (names o done)

theorem endpoints_held (names : ∀ o ∈ past, o.Undotted) : Holds (endpointsIn past) (after past).endpoints := by
  refine endpoints_gather.held rfl ?_ names
  intro o e inserts name
  cases o <;> cases inserts
  exact name

theorem urls_held (names : ∀ o ∈ past, o.Undotted) : Holds (urlsIn past) (after past).urls := by
  refine urls_gather.held rfl ?_ names
  intro o e inserts name
  cases o <;> cases inserts
  exact name

theorem stats_exact (names : ∀ o ∈ past, o.Undotted) : (after past).stats = statsOf past := by
  have packages : (after past).packages.length = places (past.filterMap Operation.package?) := by
    rw [packages_gather.after]
    exact (foldl_mark _).size
  have urlFiles : (after past).urlFiles.length = places (past.filterMap Operation.urlFile?) := by
    rw [urlFiles_gather.after]
    exact (foldl_mark _).size
  rw [stats, statsOf, packages, urlFiles, (endpoints_held names).size, after_lookups]

-- An operation that enters nothing for a pair can be left out.
theorem lookup_unmoved {read : Operation → Option ((Path × String) × α)} {o : Operation} {pair : Path × String}
    (other : ∀ v, read o ≠ some (pair, v)) (before later : List Operation) :
    ((before ++ o :: later).filterMap read).lookup pair = ((before ++ later).filterMap read).lookup pair := by
  rw [List.filterMap_append, List.filterMap_append, List.lookup_append, List.lookup_append]
  cases reads : read o with
  | none => rw [List.filterMap_cons_none reads]
  | some e =>
    have apart : (pair == e.1) = false := by
      refine beq_eq_false_iff_ne.mpr ?_
      rintro rfl
      exact other e.2 reads
    rw [List.filterMap_cons_some reads, List.lookup_cons, apart]

-- Whatever is done in between, the cache answers with the first value entered for just this spelling and name.
theorem first_entries_kept (names : ∀ o ∈ past, o.Undotted) :
    (∀ dir f e, Dotless f →
      (((after past).endpoint? dir f).2 = some e ↔ FirstEntry (endpointsIn past) dir f e)) ∧
    (∀ file g url, Dotless g → ((after past).url? file g = some url ↔ FirstEntry (urlsIn past) file g url)) ∧
    (∀ before o later, past = before ++ o :: later →
      (∀ dir f, Dotless f → (∀ e, o ≠ .insertEndpoint dir f e) →
        ((after past).endpoint? dir f).2 = ((after (before ++ later)).endpoint? dir f).2) ∧
      ∀ file g, Dotless g → (∀ url, o ≠ .insertUrl file g url) →
        (after past).url? file g = (after (before ++ later)).url? file g) ∧
    (after past).stats = statsOf past := by
  refine ⟨?_, ?_, ?_, stats_exact names⟩
  · intro dir f e name
    rw [firstEntry_iff, endpoint?, (endpoints_held names).answers dir f name]
  · intro file g url name
    rw [firstEntry_iff, url?, (urls_held names).answers file g name]
  · rintro before o later rfl
    have others : ∀ o ∈ before ++ later, o.Undotted := by
      intro o member
      refine names o ?_
      rw [List.mem_append, List.mem_cons, or_left_comm, ← List.mem_append]
      exact .inr member
    refine ⟨?_, ?_⟩
    · intro dir f name other
      rw [endpoint?, endpoint?, (endpoints_held names).answers dir f name,
        (endpoints_held others).answers dir f name]
      refine lookup_unmoved ?_ before later
      intro e reads
      cases o <;> cases reads
      exact other e rfl
    · intro file g name other
      rw [url?, url?, (urls_held names).answers file g name, (urls_held others).answers file g name]
      refine lookup_unmoved ?_ before later
      intro url reads
      cases o <;> cases reads
      exact other url rfl

def listing : Endpoint := ⟨"ports", .get⟩

def creating : Endpoint := ⟨"ports/\x7bid\x7d", .post⟩

def nested : List Operation :=
  [.markPackage ⟨"v"⟩, .insertEndpoint ⟨"v"⟩ "get" listing, .insertEndpoint ⟨"v.get"⟩ "get" creating,
    .lookUpEndpoint ⟨"v"⟩ "get", .markPackage ⟨"v/"⟩, .insertUrl ⟨"v"⟩ "get" "zones",
    .insertEndpoint ⟨"v"⟩ "get" creating, .markPackage ⟨"v.get"⟩]

theorem first_entries_kept_nested :
    (∀ o ∈ nested, o.Undotted) ∧
      ((after nested).endpoint? ⟨"v"⟩ "get").2 = some listing ∧
      ((after nested).endpoint? ⟨"v.get"⟩ "get").2 = some creating ∧
      (after nested).url? ⟨"v"⟩ "get" = some "zones" ∧
      (after nested).stats = ⟨2, 0, 2, 1⟩ := by
  have name : Dotless "get" := by
    unfold Dotless
    decide
  have names : ∀ o ∈ nested, o.Undotted := by
    simp [nested, Operation.Undotted, name]
  obtain ⟨endpoints, urls, _, counts⟩ := first_entries_kept names
  refine ⟨names, ?_, ?_, ?_, ?_⟩
  · exact (endpoints ⟨"v"⟩ "get" listing name).mpr (firstEntry_iff.mpr (by decide +kernel))
  · exact (endpoints ⟨"v.get"⟩ "get" creating name).mpr (firstEntry_iff.mpr (by decide +kernel))
  · exact (urls ⟨"v"⟩ "get" "zones" name).mpr (firstEntry_iff.mpr (by decide +kernel))
  · rw [counts]
    decide +kernel

-- With a dot in a name, two pairs can have one key.
example : key ⟨"v.get"⟩ "all" = key ⟨"v"⟩ "get.all" := by decide

end CallAtlas.Sdk.Cache
