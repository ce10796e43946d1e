import CallAtlas.Proofs.Sdk.UrlFiles
import Mathlib.Data.List.Induction
import Mathlib.Data.List.Nodup
import CallAtlas.Proofs.Data.SortedMap

namespace CallAtlas.Sdk.Rest

open CallAtlas.Text Resolving

-- The functions without a URL of their own, with what they delegate to, as declared.
def delegations (file : Go.SourceFile) : List (String × String) :=
  file.functions.filterMap fun f =>
    match urlFunction file f with
    | .delegates callee => some (f.name, callee)
    | _ => none

def Builds (file : Go.SourceFile) (n url : String) : Prop :=
  ∃ f ∈ file.functions, f.name = n ∧ builderUrl? file.literal? f.source = some url

-- What is found under a name once the delegations have been followed in order: a callee that
-- delegates itself counts if it stands before its caller.
inductive Given (stored : String → String → Prop) (ds : List (String × String)) : String → String → Prop
  | stored {n url} : stored n url → Given stored ds n url
  | once {n callee url} : (n, callee) ∈ ds → stored callee url → Given stored ds n url
  | again {n callee next url} : [(callee, next), (n, callee)].Sublist ds → Given stored ds callee url →
      Given stored ds n url

-- The URL of a callee that joins path segments itself.
def OneHop (file : Go.SourceFile) (n url : String) : Prop :=
  ∃ callee, (n, callee) ∈ delegations file ∧ Builds file callee url

-- A builder delegates to one that delegates to one with a URL of its own.
def Chained (file : Go.SourceFile) : Prop :=
  ∃ n callee url, (n, callee) ∈ delegations file ∧ OneHop file callee url

structure Reordered (file file' : Go.SourceFile) : Prop where
  literals : file'.literal? = file.literal?
  functions : file.Permuted file'

-- Storing the URLs of a file that has been parsed.
def storeFile (p : Path) (file : Go.SourceFile) : Resolving Unit := do
  storeDelegations p (← storeBuilders p file file.functions)

section Following

variable {stored stored' : String → String → Prop} {ds done : List (String × String)}
  {d : String × String} {n url : String}

theorem caller_mem {n callee next : String} (order : [(callee, next), (n, callee)].Sublist ds) :
    (n, callee) ∈ ds :=
  order.subset (List.mem_cons_of_mem _ (List.mem_singleton.mpr rfl))

theorem Given.declared (given : Given stored ds n url) : stored n url ∨ n ∈ ds.map (·.1) := by
  cases given with
  | stored here => exact .inl here
  | once member => exact .inr (List.mem_map_of_mem member)
  | again order => exact .inr (List.mem_map_of_mem (caller_mem order))

theorem Given.mono (longer : done.Sublist ds) (given : Given stored done n url) :
    Given stored ds n url := by
  induction given with
  | stored here => exact .stored here
  | once member here => exact .once (longer.subset member) here
  | again order _ ih => exact .again (order.trans longer) ih

theorem Given.of_dotless (same : ∀ m, Dotless m → stored m url → stored' m url)
    (callees : ∀ d ∈ ds, Dotless d.2) (name : Dotless n) (given : Given stored ds n url) :
    Given stored' ds n url := by
  induction given with
  | stored here => exact .stored (same _ name here)
  | once member here => exact .once member (same _ (callees _ member) here)
  | again order _ ih => exact .again order (ih same (callees _ (caller_mem order)))

-- One delegation more. Its callee counts as it stands before it.
theorem given_snoc (new : d.1 ∉ done.map (·.1)) (empty : ¬ ∃ url, stored d.1 url) :
    Given stored (done ++ [d]) n url ↔
      Given stored done n url ∨ n = d.1 ∧ Given stored done d.2 url := by
  constructor
  · intro given
    induction given with
    | stored here => exact .inl (.stored here)
    | once member here =>
      rcases List.mem_append.mp member with before | last
      · exact .inl (.once before here)
      · cases List.mem_singleton.mp last
        exact .inr ⟨rfl, .stored here⟩
    | @again n callee next url order _ ih =>
      have callee_before : ∀ {x}, (callee, x) ∈ done → Given stored done callee url := by
        intro x before
        rcases ih with given | ⟨same, _⟩
        · exact given
        · exact absurd (same ▸ List.mem_map_of_mem before) new
      obtain ⟨front, back, split, inside, tail⟩ := List.sublist_append_iff.mp order
      rcases front with _ | ⟨first, _ | ⟨second, front⟩⟩
      · rw [List.nil_append] at split
        have short := tail.length_le
        simp [← split] at short
      · simp only [List.cons_append, List.nil_append, List.cons.injEq] at split
        obtain ⟨rfl, rfl⟩ := split
        cases List.singleton_sublist.mp tail |> List.mem_singleton.mp
        exact .inr ⟨rfl, callee_before (List.singleton_sublist.mp inside)⟩
      · simp only [List.cons_append, List.cons.injEq] at split
        obtain ⟨rfl, rfl, split⟩ := split
        obtain ⟨rfl, rfl⟩ := List.append_eq_nil_iff.mp split.symm
        exact .inl (.again inside (callee_before (inside.subset List.mem_cons_self)))
  · rintro (given | ⟨rfl, given⟩)
    · exact given.mono (List.sublist_append_left done [d])
    · rcases given.declared with here | before
      · exact .once (by simp) here
      · obtain ⟨⟨callee, next⟩, member, same⟩ := List.mem_map.mp before
        dsimp only at same
        subst same
        exact .again (List.singleton_sublist.mpr member |>.append (.refl [d]))
          (given.mono (List.sublist_append_left done [d]))

end Following

section Storing

variable {p : Path} {file file' : Go.SourceFile} {s : State} {n url : String}

theorem storeUrl_url {f built : String} (unfixed : fixedUrl? p f = none)
    (empty : s.cache.url? p f = none) :
    (after (storeUrl p f built) s).cache.url? p n = some url ↔
      s.cache.url? p n = some url ∨ n = f ∧ built = url := by
  simp only [storeUrl, after_modify, url?_insertUrl, unfixed, Option.getD_none, empty, Option.none_or]
  by_cases here : n = f
  · subst here
    simp [empty]
  · have keys : Cache.key p n ≠ Cache.key p f := fun same => here (Cache.key_right_inj same)
    simp [keys, here]

theorem urlFunction_builds (f : Go.Function) :
    urlFunction file f = .builds url ↔ builderUrl? file.literal? f.source = some url := by
  unfold urlFunction
  cases builderUrl? file.literal? f.source with
  | some u => simp
  | none => cases delegation.find? f.source <;> simp

theorem storeBuilders_urls {functions : List Go.Function}
    (distinct : (functions.map (·.name)).Nodup) (unfixed : ∀ f ∈ functions, fixedUrl? p f.name = none)
    (fresh : ∀ f ∈ functions, s.cache.url? p f.name = none) :
    (after (storeBuilders p file functions) s).cache.url? p n = some url ↔
      s.cache.url? p n = some url ∨
        ∃ f ∈ functions, f.name = n ∧ builderUrl? file.literal? f.source = some url := by
  induction functions generalizing s with
  | nil => simp [storeBuilders]
  | cons f rest ih =>
    obtain ⟨new, distinct⟩ := List.nodup_cons.mp distinct
    obtain ⟨unfixedHere, unfixed⟩ := List.forall_mem_cons.mp unfixed
    obtain ⟨empty, fresh⟩ := List.forall_mem_cons.mp fresh
    simp only [List.mem_cons, exists_eq_or_imp]
    rw [storeBuilders, ← urlFunction_builds f]
    cases urlFunction file f with
    | builds u =>
      have step : ∀ m url, (after (storeUrl p f.name u) s).cache.url? p m = some url ↔
          s.cache.url? p m = some url ∨ m = f.name ∧ u = url :=
        fun m url => storeUrl_url unfixedHere empty
      have later : ∀ g ∈ rest, (after (storeUrl p f.name u) s).cache.url? p g.name = none := by
        intro g member
        rw [Option.eq_none_iff_forall_ne_some]
        intro v found
        rcases (step g.name v).mp found with old | ⟨same, _⟩
        · rw [fresh g member] at old
          cases old
        · exact new (List.mem_map.mpr ⟨g, member, same⟩)
      dsimp only
      rw [after_bind, ih distinct unfixed later, step, or_assoc, UrlFunction.builds.injEq, @eq_comm _ n]
    | delegates callee => simpa using ih distinct unfixed fresh
    | neither => simpa using ih distinct unfixed fresh

theorem storeDelegations_append (first second : List (String × String)) :
    after (storeDelegations p (first ++ second)) s =
      after (storeDelegations p second) (after (storeDelegations p first) s) := by
  induction first generalizing s with
  | nil => rfl
  | cons d rest ih =>
    obtain ⟨function, callee⟩ := d
    simp only [List.cons_append, storeDelegations, after_bind, answer_get, after_get]
    cases s.cache.url? p callee with
    | none => exact ih
    | some url => exact ih

theorem storeDelegation_url {d : String × String} (unfixed : fixedUrl? p d.1 = none)
    (empty : s.cache.url? p d.1 = none) :
    (after (storeDelegations p [d]) s).cache.url? p n = some url ↔
      s.cache.url? p n = some url ∨ n = d.1 ∧ s.cache.url? p d.2 = some url := by
  obtain ⟨function, callee⟩ := d
  simp only [storeDelegations, after_bind, answer_get, after_get]
  cases found : s.cache.url? p callee with
  | none => simp
  | some u => simpa using storeUrl_url unfixed empty

-- The table after a run over the delegations; by induction on those that have been followed.
theorem storeDelegations_urls {ds : List (String × String)} (distinct : (ds.map (·.1)).Nodup)
    (unfixed : ∀ d ∈ ds, fixedUrl? p d.1 = none) (fresh : ∀ d ∈ ds, s.cache.url? p d.1 = none) :
    (after (storeDelegations p ds) s).cache.url? p n = some url ↔
      Given (fun m u => s.cache.url? p m = some u) ds n url := by
  induction ds using List.reverseRecOn generalizing n url with
  | nil =>
    refine ⟨fun found => .stored found, fun given => ?_⟩
    exact given.declared.resolve_right (by simp)
  | append_singleton done d ih =>
    rw [List.map_append, List.nodup_append] at distinct
    obtain ⟨distinct, _, apart⟩ := distinct
    obtain ⟨unfixed, unfixedLast⟩ := List.forall_mem_append.mp unfixed
    obtain ⟨fresh, freshLast⟩ := List.forall_mem_append.mp fresh
    have new : d.1 ∉ done.map (·.1) := fun old => apart d.1 old d.1 (by simp) rfl
    have nothing : ¬ ∃ u, s.cache.url? p d.1 = some u := by simp [freshLast d (by simp)]
    have empty : (after (storeDelegations p done) s).cache.url? p d.1 = none := by
      rw [Option.eq_none_iff_forall_ne_some]
      intro u found
      rcases ((ih distinct unfixed fresh).mp found).declared with old | old
      · exact nothing ⟨u, old⟩
      · exact new old
    rw [storeDelegations_append, storeDelegation_url (unfixedLast d (by simp)) empty,
      ih distinct unfixed fresh, ih distinct unfixed fresh, given_snoc new nothing]

end Storing

section Files

variable {p : Path} {file file' : Go.SourceFile} {s : State} {n url : String}

-- Of a file with such functions each name means one function, and its URL is the one in its body.
structure Plain (p : Path) (file : Go.SourceFile) : Prop where
  distinct : (file.functions.map (·.name)).Nodup
  unfixed : ∀ f ∈ file.functions, fixedUrl? p f.name = none
  dotless : ∀ f ∈ file.functions, Dotless f.name

theorem delegations_mem {d : String × String} :
    d ∈ delegations file ↔ ∃ f ∈ file.functions, f.name = d.1 ∧ urlFunction file f = .delegates d.2 := by
  unfold delegations
  rw [List.mem_filterMap]
  refine exists_congr fun f => and_congr_right fun _ => ?_
  obtain ⟨n, callee⟩ := d
  cases urlFunction file f <;> simp

theorem delegations_names : ((delegations file).map (·.1)).Sublist (file.functions.map (·.name)) := by
  refine SortedMap.names_sublist (fun f d made => ?_) file.functions
  split at made
  · cases made
    rfl
  · cases made

theorem callee_dotless {d : String × String} (member : d ∈ delegations file) : Dotless d.2 := by
  obtain ⟨f, _, _, delegates⟩ := delegations_mem.mp member
  exact urlFunction_callee delegates

theorem builds_iff : Builds file n url ↔
    ∃ f ∈ file.functions, f.name = n ∧ urlFunction file f = .builds url := by
  simp only [Builds, urlFunction_builds]

namespace Plain

variable (plain : Plain p file)

include plain

theorem same {f g : Go.Function} (first : f ∈ file.functions) (second : g ∈ file.functions)
    (name : f.name = g.name) : f = g :=
  List.inj_on_of_nodup_map plain.distinct first second name

theorem callee_unique {callee other : String} (first : (n, callee) ∈ delegations file)
    (second : (n, other) ∈ delegations file) : callee = other := by
  obtain ⟨f, member, name, delegates⟩ := delegations_mem.mp first
  obtain ⟨g, member', name', delegates'⟩ := delegations_mem.mp second
  obtain rfl := plain.same member member' (name.trans name'.symm)
  rw [delegates] at delegates'
  exact UrlFunction.delegates.inj delegates'

theorem not_both {callee : String} (delegates : (n, callee) ∈ delegations file) :
    ¬ Builds file n url := by
  intro builds
  obtain ⟨f, member, name, delegates⟩ := delegations_mem.mp delegates
  obtain ⟨g, member', name', builds⟩ := builds_iff.mp builds
  obtain rfl := plain.same member member' (name.trans name'.symm)
  rw [delegates] at builds
  cases builds

theorem storeFile_exact (fresh : ∀ m, Dotless m → s.cache.url? p m = none) (name : Dotless n) :
    (after (storeFile p file) s).cache.url? p n = some url ↔
      Given (Builds file) (delegations file) n url := by
  have functionsFresh : ∀ f ∈ file.functions, s.cache.url? p f.name = none :=
    fun f member => fresh f.name (plain.dotless f member)
  have built : ∀ m, Dotless m → ∀ u,
      ((after (storeBuilders p file file.functions) s).cache.url? p m = some u ↔ Builds file m u) := by
    intro m dotless u
    rw [storeBuilders_urls plain.distinct plain.unfixed functionsFresh, fresh m dotless]
    simp [Builds]
  have left : ∀ d ∈ delegations file,
      (after (storeBuilders p file file.functions) s).cache.url? p d.1 = none := by
    intro d member
    obtain ⟨f, inside, name, _⟩ := delegations_mem.mp member
    rw [Option.eq_none_iff_forall_ne_some]
    intro u found
    exact plain.not_both member ((built d.1 (name ▸ plain.dotless f inside) u).mp found)
  have unfixed : ∀ d ∈ delegations file, fixedUrl? p d.1 = none := by
    intro d member
    obtain ⟨f, inside, name, _⟩ := delegations_mem.mp member
    exact name ▸ plain.unfixed f inside
  have answered : answer (storeBuilders p file file.functions) s = delegations file :=
    storeBuilders_answer p file file.functions s
  rw [storeFile, after_bind, answered,
    storeDelegations_urls (delegations_names.nodup plain.distinct) unfixed left]
  constructor
  · exact Given.of_dotless (fun m dotless => (built m dotless url).mp) (fun d => callee_dotless) name
  · exact Given.of_dotless (fun m dotless => (built m dotless url).mpr) (fun d => callee_dotless) name

-- Of a function without a URL of its own: one hop, or a callee before it that takes a hop itself.
theorem given_hop {f : Go.Function} (delegates : builderUrl? file.literal? f.source = none) (member : f ∈ file.functions) :
    Given (Builds file) (delegations file) f.name url ↔
      OneHop file f.name url ∨
        ∃ callee next, [(callee, next), (f.name, callee)].Sublist (delegations file) ∧
          Given (Builds file) (delegations file) callee url := by
  constructor
  · rintro (⟨g, member', name, builds⟩ | ⟨known, builds⟩ | ⟨order, given⟩)
    · rw [plain.same member' member name, delegates] at builds
      cases builds
    · exact .inl ⟨_, known, builds⟩
    · exact .inr ⟨_, _, order, given⟩
  · rintro (⟨callee, known, builds⟩ | ⟨callee, next, order, given⟩)
    · exact .once known builds
    · exact .again order given

theorem given_unchained (alone : ¬ Chained file) :
    Given (Builds file) (delegations file) n url ↔ Builds file n url ∨ OneHop file n url := by
  constructor
  · intro given
    induction given with
    | stored here => exact .inl here
    | once member here => exact .inr ⟨_, member, here⟩
    | again order _ ih =>
      rcases ih with builds | hop
      · exact absurd builds (plain.not_both (order.subset List.mem_cons_self))
      · exact absurd ⟨_, _, _, caller_mem order, hop⟩ alone
  · rintro (builds | ⟨callee, member, builds⟩)
    · exact .stored builds
    · exact .once member builds

end Plain

namespace Reordered

theorem symm (reordered : Reordered file file') : Reordered file' file :=
  ⟨reordered.literals.symm, reordered.functions.symm⟩

theorem counterpart {f : Go.Function} (reordered : Reordered file file') (member : f ∈ file.functions) :
    ∃ g ∈ file'.functions, g.name = f.name ∧ urlFunction file' g = urlFunction file f := by
  obtain ⟨g, member, name, source⟩ := reordered.functions.counterpart member
  refine ⟨g, member, name, ?_⟩
  unfold urlFunction
  rw [reordered.literals, source]

theorem builds (reordered : Reordered file file') (given : Builds file n url) : Builds file' n url := by
  obtain ⟨f, member, name, given⟩ := builds_iff.mp given
  obtain ⟨g, member, same, alike⟩ := reordered.counterpart member
  exact builds_iff.mpr ⟨g, member, same.trans name, alike.trans given⟩

theorem delegates {d : String × String} (reordered : Reordered file file')
    (given : d ∈ delegations file) : d ∈ delegations file' := by
  obtain ⟨f, member, name, given⟩ := delegations_mem.mp given
  obtain ⟨g, member, same, alike⟩ := reordered.counterpart member
  exact delegations_mem.mpr ⟨g, member, same.trans name, alike.trans given⟩

theorem oneHop (reordered : Reordered file file') (given : OneHop file n url) : OneHop file' n url := by
  obtain ⟨callee, member, builds⟩ := given
  exact ⟨callee, reordered.delegates member, reordered.builds builds⟩

theorem chained (reordered : Reordered file file') (given : Chained file) : Chained file' := by
  obtain ⟨n, callee, url, member, hop⟩ := given
  exact ⟨n, callee, url, reordered.delegates member, reordered.oneHop hop⟩

theorem plain (reordered : Reordered file file') (plain : Plain p file) : Plain p file' where
  distinct := reordered.functions.distinct plain.distinct
  unfixed f member := by
    obtain ⟨g, member, name, _⟩ := reordered.symm.counterpart member
    exact name ▸ plain.unfixed g member
  dotless f member := by
    obtain ⟨g, member, name, _⟩ := reordered.symm.counterpart member
    exact name ▸ plain.dotless g member

theorem unchained (reordered : Reordered file file') (plain : Plain p file) (alone : ¬ Chained file) :
    Given (Builds file') (delegations file') n url ↔ Given (Builds file) (delegations file) n url := by
  have alone' : ¬ Chained file' := fun chained => alone (reordered.symm.chained chained)
  rw [plain.given_unchained alone, (reordered.plain plain).given_unchained alone']
  exact or_congr ⟨reordered.symm.builds, reordered.builds⟩ ⟨reordered.symm.oneHop, reordered.oneHop⟩

end Reordered

-- A file with one of its functions in front of all others, and with it behind them.
theorem placed {f : Go.Function} (member : f ∈ file.functions) :
    ∃ others, Reordered file { file with functions := f :: others } ∧
      Reordered file { file with functions := others ++ [f] } := by
  obtain ⟨before, later, split⟩ := List.append_of_mem member
  have front : file.functions.Perm (f :: (before ++ later)) := split ▸ List.perm_middle
  refine ⟨before ++ later, ⟨rfl, front.map _⟩, ⟨rfl, ?_⟩⟩
  exact (front.trans (List.perm_append_singleton f (before ++ later)).symm).map _

section Placing

variable {f : Go.Function} {others : List Go.Function} {callee next : String}

theorem delegations_behind (delegates : urlFunction file f = .delegates callee) :
    delegations { file with functions := others ++ [f] } =
      delegations { file with functions := others } ++ [(f.name, callee)] := by
  have same : urlFunction { file with functions := others ++ [f] } f = .delegates callee := delegates
  simp only [delegations, List.filterMap_append, List.filterMap_cons, same, List.filterMap_nil]
  rfl

theorem delegations_front (delegates : urlFunction file f = .delegates callee) :
    delegations { file with functions := f :: others } =
      (f.name, callee) :: delegations { file with functions := others } := by
  have same : urlFunction { file with functions := f :: others } f = .delegates callee := delegates
  simp only [delegations, List.filterMap_cons, same]
  rfl

theorem given_behind (delegates : urlFunction file f = .delegates callee) (apart : callee ≠ f.name)
    (further : (callee, next) ∈ delegations { file with functions := others ++ [f] })
    (builds : Builds { file with functions := others ++ [f] } next url) :
    Given (Builds { file with functions := others ++ [f] })
      (delegations { file with functions := others ++ [f] }) f.name url := by
  have given := Given.once further builds
  rw [delegations_behind delegates] at further given ⊢
  have before : (callee, next) ∈ delegations { file with functions := others } := by
    rcases List.mem_append.mp further with there | same
    · exact there
    · exact absurd (congrArg Prod.fst (List.mem_singleton.mp same)) apart
  exact .again ((List.singleton_sublist.mpr before).append (.refl [(f.name, callee)])) given

theorem not_given_front (plain : Plain p { file with functions := f :: others })
    (delegates : urlFunction file f = .delegates callee)
    (further : (callee, next) ∈ delegations { file with functions := f :: others }) :
    ¬ Given (Builds { file with functions := f :: others })
      (delegations { file with functions := f :: others }) f.name url := by
  have names := delegations_names.nodup plain.distinct
  have here : (f.name, callee) ∈ delegations { file with functions := f :: others } := by
    rw [delegations_front delegates]
    exact List.mem_cons_self
  rintro (built | ⟨known, built⟩ | ⟨order, _⟩)
  · exact plain.not_both here built
  · obtain rfl := plain.callee_unique here known
    exact plain.not_both further built
  · rw [delegations_front delegates] at order names
    obtain ⟨new, _⟩ := List.nodup_cons.mp names
    cases order with
    | cons _ later => exact new (List.mem_map.mpr ⟨_, caller_mem later, rfl⟩)
    | cons_cons _ later => exact new (List.mem_map.mpr ⟨_, List.singleton_sublist.mp later, rfl⟩)

end Placing

-- The caller of a function that delegates has a URL behind all others and none in front of them.
theorem Chained.order_matters (plain : Plain p file) (chained : Chained file) :
    ∃ front back, Reordered file front ∧ Reordered file back ∧ ∃ n url, Dotless n ∧
      Given (Builds back) (delegations back) n url ∧
        ¬ Given (Builds front) (delegations front) n url := by
  obtain ⟨n, callee, url, member, next, further, builds⟩ := chained
  obtain ⟨f, inside, name, delegates⟩ := delegations_mem.mp member
  dsimp only at name delegates
  subst name
  have apart : callee ≠ f.name := by
    rintro rfl
    obtain rfl := plain.callee_unique member further
    exact plain.not_both member builds
  obtain ⟨others, front, back⟩ := placed inside
  exact ⟨_, _, front, back, f.name, url, plain.dotless f inside,
    given_behind delegates apart (back.delegates further) (back.builds builds),
    not_given_front (front.plain plain) delegates (front.delegates further)⟩

theorem readUrlFile_parsed {tree : SourceTree} (parsed : answer (parseFile tree p) s = some file) :
    after (readUrlFile tree p) s = after (storeFile p file) { s with reads := s.reads ++ [p] } := by
  rw [readUrlFile, after_bind, parsed, after_parseFile]
  rfl

-- A file's URLs. A chain of two delegations gives one if and only if it is declared from its end;
-- without such chains each builder has its own URL or its callee's, in every order.
theorem delegation_exact {tree : SourceTree} (parsed : answer (parseFile tree p) s = some file)
    (distinct : (file.functions.map (·.name)).Nodup)
    (unfixed : ∀ f ∈ file.functions, fixedUrl? p f.name = none)
    (fresh : ∀ n, Dotless n → s.cache.url? p n = none) :
    (∀ n url, Dotless n →
      ((after (readUrlFile tree p) s).cache.url? p n = some url ↔
        Given (Builds file) (delegations file) n url)) ∧
    (∀ f ∈ file.functions, builderUrl? file.literal? f.source = none →
      ((∀ url, (after (readUrlFile tree p) s).cache.url? p f.name = some url ↔ OneHop file f.name url) ↔
        ¬ ∃ callee next url, [(callee, next), (f.name, callee)].Sublist (delegations file) ∧
          Given (Builds file) (delegations file) callee url)) ∧
    ((∀ file', Reordered file file' → ∀ n, Dotless n →
        (after (storeFile p file') s).cache.url? p n = (after (readUrlFile tree p) s).cache.url? p n) ↔
      ¬ Chained file) := by
  have plain : Plain p file := ⟨distinct, unfixed, parseFile_names parsed⟩
  have stored : ∀ n url, Dotless n → ((after (readUrlFile tree p) s).cache.url? p n = some url ↔
      Given (Builds file) (delegations file) n url) := by
    intro n url name
    rw [readUrlFile_parsed parsed]
    exact plain.storeFile_exact (s := { s with reads := s.reads ++ [p] }) fresh name
  refine ⟨stored, ?_, ?_⟩
  · intro f member delegates
    have name := plain.dotless f member
    simp only [stored f.name _ name, plain.given_hop delegates member]
    constructor
    · rintro single ⟨callee, next, url, order, given⟩
      obtain ⟨other, known, builds⟩ := (single url).mp (.inr ⟨callee, next, order, given⟩)
      obtain rfl := plain.callee_unique known (caller_mem order)
      exact plain.not_both (order.subset List.mem_cons_self) builds
    · intro none url
      refine ⟨fun given => given.resolve_right ?_, .inl⟩
      rintro ⟨callee, next, order, given⟩
      exact none ⟨callee, next, url, order, given⟩
  · constructor
    · intro same chained
      obtain ⟨front, back, toFront, toBack, n, url, name, found, missing⟩ := chained.order_matters plain
      rw [← (toBack.plain plain).storeFile_exact fresh name, same back toBack n name,
        ← same front toFront n name, (toFront.plain plain).storeFile_exact fresh name] at found
      exact missing found
    · intro alone file' reordered n name
      refine Option.ext fun url => ?_
      rw [(reordered.plain plain).storeFile_exact fresh name, stored n url name,
        reordered.unchained plain alone]

end Files

def urls : Path := ⟨"urls.go"⟩

-- A tree that has only a URL file with some functions, as they are declared.
def declaring (functions : List String) : SourceTree := .ofFiles [(urls, .text (String.join functions))]

def joining : String := "func c()\x7bx.ServiceURL(\"ports\")\x7d\n"

def hop : String := "func b()\x7breturn c()\x7d\n"

def secondHop : String := "func a()\x7breturn b()\x7d\n"

theorem declaring_parsed :
    (answer (parseFile (declaring [joining, hop, secondHop]) urls) {}).map (fun file =>
        (file.functions.map fun f => (f.name, builderUrl? file.literal? f.source), delegations file)) =
      some ([("c", some "ports"), ("b", none), ("a", none)], [("b", "c"), ("a", "b")]) := by
  decide +kernel

theorem delegation_exact_ports :
    ∃ file, answer (parseFile (declaring [joining, hop, secondHop]) urls) {} = some file ∧
      (after (readUrlFile (declaring [joining, hop, secondHop]) urls) {}).cache.url? urls "a" =
        some "ports" ∧
      ¬ ∀ file', Reordered file file' → ∀ n, Dotless n →
        (after (storeFile urls file') {}).cache.url? urls n =
          (after (readUrlFile (declaring [joining, hop, secondHop]) urls) {}).cache.url? urls n := by
  obtain ⟨file, parsed, fields⟩ := Option.map_eq_some_iff.mp declaring_parsed
  obtain ⟨functions, ds⟩ := Prod.mk.injEq .. ▸ fields
  have names : file.functions.map (·.name) = ["c", "b", "a"] := by
    have firsts := congrArg (List.map Prod.fst) functions
    rwa [List.map_map] at firsts
  have builds : Builds file "c" "ports" := by
    have first : ("c", some "ports") ∈ file.functions.map fun f =>
        (f.name, builderUrl? file.literal? f.source) := functions ▸ List.mem_cons_self
    obtain ⟨f, member, same⟩ := List.mem_map.mp first
    exact ⟨f, member, (Prod.mk.inj same).1, (Prod.mk.inj same).2⟩
  have unfixed : ∀ f ∈ file.functions, fixedUrl? urls f.name = none := by
    have all : ∀ n ∈ ["c", "b", "a"], fixedUrl? urls n = none := by decide +kernel
    exact fun f member => all f.name (names ▸ List.mem_map_of_mem member)
  obtain ⟨stored, _, order⟩ := delegation_exact parsed (by rw [names]; decide) unfixed (fun _ _ => rfl)
  refine ⟨file, parsed, (stored "a" "ports" (by unfold Dotless; decide)).mpr ?_, ?_⟩
  · refine .again (?_ : [("b", "c"), ("a", "b")].Sublist (delegations file))
      (.once (?_ : ("b", "c") ∈ delegations file) builds)
    · rw [ds]
    · simp [ds]
  · rw [order]
    exact fun alone => alone ⟨"a", "b", "ports", by simp [ds], "c", by simp [ds], builds⟩

-- The same builders in the two orders. The body of the callee joins no segments, so a
-- single hop would end there in both.
theorem second_hop_taken :
    builderUrl? (fun _ => none) hop = none ∧
      answer (urlOf (declaring [joining, hop, secondHop]) urls "a") {} = some "ports" ∧
      answer (urlOf (declaring [secondHop, hop, joining]) urls "a") {} = none := by
  decide +kernel

end CallAtlas.Sdk.Rest
