import CallAtlas.Proofs.Sdk.Delegations

namespace CallAtlas.Sdk

open CallAtlas.Text Resolving

theorem replaceFrom_single (x y : Char) (text : List Char) :
    replaceFrom [x] [y] 0 text = text.map fun c => if c = x then y else c := by
  induction text with
  | nil => rfl
  | cons c rest ih =>
    simp only [replaceFrom, List.isPrefixOf_cons_cons, List.isPrefixOf_nil_left, Bool.and_true, beq_iff_eq,
      List.map_cons, List.length_singleton, Nat.sub_self, ih]
    by_cases same : c = x
    · simp [same]
    · simp [same, Ne.symm same]

-- The spelling of a path may have backslashes, but not where it ends so.
theorem fixedUrl?_place {p : Path} {n : String} (place : endsWith p.text "dns/v2/ptrrecords/urls.go" = true)
    (name : n = "baseURL" ∨ n = "resourceURL") :
    fixedUrl? p n = some "reverse/floatingips/\x7bregion\x7d:\x7bfloatingip_id\x7d" := by
  obtain ⟨front, whole⟩ := List.isSuffixOf_iff_suffix.mp place
  have plain : ("dns/v2/ptrrecords/urls.go".toList.map fun c => if c = '\\' then '/' else c) =
      "dns/v2/ptrrecords/urls.go".toList := by decide
  have there : endsWith (replace p.text "\\" "/") "dns/v2/ptrrecords/urls.go" = true := by
    rw [endsWith, List.isSuffixOf_iff_suffix, replace, ← whole, show "\\".toList = ['\\'] from rfl,
      show "/".toList = ['/'] from rfl, replaceFrom_single, List.map_append, plain]
    exact ⟨_, String.toList_ofList.symm⟩
  rcases name with rfl | rfl <;> simp [fixedUrl?, fixedUrls, there]

-- One URL is fixed for all of them.
theorem fixedUrl?_unique {p : Path} {n m a b : String} (one : fixedUrl? p n = some a)
    (other : fixedUrl? p m = some b) : a = b := by
  obtain ⟨x, found, rfl⟩ := Option.map_eq_some_iff.mp one
  obtain ⟨y, found', rfl⟩ := Option.map_eq_some_iff.mp other
  have single : ∀ z ∈ fixedUrls, z.url = "reverse/floatingips/\x7bregion\x7d:\x7bfloatingip_id\x7d" := by decide
  rw [single x (List.mem_of_find?_eq_some found), single y (List.mem_of_find?_eq_some found')]

namespace Rest

-- The delegations are followed in order: a callee counts if it has a URL by then.
inductive Reached (known : String → Prop) : List (String × String) → String → Prop
  | known {ds n} : known n → Reached known ds n
  | delegated {done later n callee} : Reached known done callee →
      Reached known (done ++ (n, callee) :: later) n

def Joins (file : Go.SourceFile) (n : String) : Prop := ∃ url, Builds file n url

section Reaching

variable {known known' : String → Prop} {ds done : List (String × String)} {d : String × String} {n : String}

theorem Reached.of_dotless (same : ∀ m, Dotless m → known m → known' m)
    (callees : ∀ d ∈ ds, Dotless d.2) (name : Dotless n) (reached : Reached known ds n) :
    Reached known' ds n := by
  induction reached with
  | known here => exact .known (same _ name here)
  | delegated _ ih =>
    obtain ⟨before, last⟩ := List.forall_mem_append.mp callees
    exact .delegated (ih before (last _ List.mem_cons_self))

theorem reached_nil : Reached known [] n ↔ known n := by
  refine ⟨fun reached => ?_, .known⟩
  generalize empty : [] = ds at reached
  cases reached with
  | known here => exact here
  | delegated _ => simp at empty

theorem reached_snoc :
    Reached known (done ++ [d]) n ↔ Reached known done n ∨ n = d.1 ∧ Reached known done d.2 := by
  constructor
  · intro reached
    generalize whole : done ++ [d] = ds at reached
    cases reached with
    | known here => exact .inl (.known here)
    | @delegated front later _ callee reached =>
      rcases List.eq_nil_or_concat later with rfl | ⟨more, last, rfl⟩
      · obtain ⟨rfl, same⟩ := List.append_inj' whole rfl
        cases same
        exact .inr ⟨rfl, reached⟩
      · rw [List.concat_eq_append, ← List.cons_append, ← List.append_assoc] at whole
        obtain ⟨rfl, _⟩ := List.append_inj' whole rfl
        exact .inl (.delegated reached)
  · rintro (reached | ⟨rfl, reached⟩)
    · cases reached with
      | known here => exact .known here
      | delegated reached =>
        rw [List.append_assoc, List.cons_append]
        exact .delegated reached
    · exact .delegated reached

end Reaching

section Storing

variable {p : Path} {file : Go.SourceFile} {s : State} {n fixed : String}

def Has (p : Path) (s : State) (n : String) : Prop := ∃ url, s.cache.url? p n = some url

theorem storeUrl_has (f built : String) : Has p (after (storeUrl p f built) s) n ↔ Has p s n ∨ n = f := by
  simp only [Has, storeUrl, after_modify, url?_insertUrl]
  by_cases here : n = f
  · subst here
    cases s.cache.url? p n <;> simp
  · have keys : Cache.key p n ≠ Cache.key p f := fun same => here (Cache.key_right_inj same)
    simp [keys, here]

theorem storeBuilders_has (functions : List Go.Function) :
    Has p (after (storeBuilders p file functions) s) n ↔
      Has p s n ∨ ∃ f ∈ functions, f.name = n ∧ ∃ url, builderUrl? file.literal? f.source = some url := by
  induction functions generalizing s with
  | nil => simp [storeBuilders]
  | cons f rest ih =>
    simp only [List.mem_cons, exists_eq_or_imp, ← urlFunction_builds]
    simp only [← urlFunction_builds] at ih
    rw [storeBuilders]
    cases urlFunction file f with
    | builds url =>
      dsimp only
      rw [after_bind, ih, storeUrl_has, or_assoc, @eq_comm _ n]
      simp
    | delegates callee => simpa using ih
    | neither => simpa using ih

theorem storeDelegation_has {d : String × String} :
    Has p (after (storeDelegations p [d]) s) n ↔ Has p s n ∨ n = d.1 ∧ Has p s d.2 := by
  obtain ⟨function, callee⟩ := d
  simp only [storeDelegations, after_bind, answer_get, after_get]
  cases found : s.cache.url? p callee with
  | none => simp [Has, found]
  | some u => simpa [show Has p s callee from ⟨u, found⟩] using storeUrl_has function u

theorem storeDelegations_has (ds : List (String × String)) :
    Has p (after (storeDelegations p ds) s) n ↔ Reached (Has p s) ds n := by
  induction ds using List.reverseRecOn generalizing n with
  | nil => exact reached_nil.symm
  | append_singleton done d ih => rw [storeDelegations_append, storeDelegation_has, ih, ih, reached_snoc]

-- Whatever is stored for the functions of a class is one and the same URL.
def Only (p : Path) (fixed : String) (named : String → Prop) (s : State) : Prop :=
  ∀ n url, named n → s.cache.url? p n = some url → url = fixed

theorem storeUrl_only {named : String → Prop} {f built : String} (only : Only p fixed named s)
    (given : named f → (fixedUrl? p f).getD built = fixed) : Only p fixed named (after (storeUrl p f built) s) := by
  intro n url here stored
  simp only [storeUrl, after_modify, url?_insertUrl] at stored
  split at stored
  · rename_i same
    obtain rfl : n = f := Cache.key_right_inj same
    cases old : s.cache.url? p n with
    | some v =>
      rw [old, Option.some_or] at stored
      exact only n url here (old.trans stored)
    | none =>
      rw [old, Option.none_or] at stored
      exact (Option.some.inj stored).symm.trans (given here)
  · exact only n url here stored

theorem storeBuilders_only {named : String → Prop} {functions : List Go.Function} (only : Only p fixed named s)
    (given : ∀ f ∈ functions, ∀ url, urlFunction file f = .builds url → named f.name →
      (fixedUrl? p f.name).getD url = fixed) :
    Only p fixed named (after (storeBuilders p file functions) s) := by
  induction functions generalizing s with
  | nil => exact only
  | cons f rest ih =>
    obtain ⟨first, later⟩ := List.forall_mem_cons.mp given
    rw [storeBuilders]
    cases shape : urlFunction file f with
    | builds url => exact ih (storeUrl_only only (first url shape)) later
    | delegates callee => exact ih only later
    | neither => exact ih only later

theorem storeDelegations_only {named : String → Prop} {ds : List (String × String)} (only : Only p fixed named s)
    (given : ∀ d ∈ ds, named d.1 → fixedUrl? p d.1 = some fixed ∨ fixedUrl? p d.1 = none ∧ named d.2) :
    Only p fixed named (after (storeDelegations p ds) s) := by
  induction ds generalizing s with
  | nil => exact only
  | cons d rest ih =>
    obtain ⟨function, callee⟩ := d
    obtain ⟨first, later⟩ := List.forall_mem_cons.mp given
    simp only [storeDelegations, after_bind, answer_get, after_get]
    cases found : s.cache.url? p callee with
    | none => exact ih only later
    | some url =>
      refine ih (storeUrl_only only fun here => ?_) later
      rcases first here with own | ⟨unfixed, calls⟩
      · rw [own, Option.getD_some]
      · rw [unfixed, Option.getD_none]
        exact only callee url calls found

end Storing

def AtRunTime (n : String) : Prop := n = "baseURL" ∨ n = "resourceURL"

-- The functions whose URL is fixed, and those that do no more than return what such a one gives.
inductive LeadsTo (file : Go.SourceFile) : String → Prop
  | own {n} : AtRunTime n → LeadsTo file n
  | through {n callee} : (∃ f ∈ file.functions, f.name = n) →
      (∀ f ∈ file.functions, f.name = n → urlFunction file f = .delegates callee) → LeadsTo file callee →
      LeadsTo file n

section Files

variable {tree : SourceTree} {p : Path} {file : Go.SourceFile} {s : State} {n : String}

theorem readUrlFile_has (parsed : answer (parseFile tree p) s = some file)
    (fresh : ∀ n, Dotless n → s.cache.url? p n = none) (name : Dotless n) :
    Has p (after (readUrlFile tree p) s) n ↔ Reached (Joins file) (delegations file) n := by
  have built : ∀ m, Dotless m →
      (Has p (after (storeBuilders p file file.functions) { s with reads := s.reads ++ [p] }) m ↔
        Joins file m) := by
    intro m dotless
    have empty : ¬ Has p { s with reads := s.reads ++ [p] } m := by
      rintro ⟨url, found⟩
      exact absurd ((fresh m dotless).symm.trans found) nofun
    rw [storeBuilders_has, or_iff_right empty]
    constructor
    · rintro ⟨f, member, same, url, builds⟩
      exact ⟨url, f, member, same, builds⟩
    · rintro ⟨url, f, member, same, builds⟩
      exact ⟨f, member, same, url, builds⟩
  rw [readUrlFile_parsed parsed, storeFile, after_bind, storeBuilders_answer, storeDelegations_has]
  constructor
  · exact Reached.of_dotless (fun m dotless => (built m dotless).mp) (fun d => callee_dotless) name
  · exact Reached.of_dotless (fun m dotless => (built m dotless).mpr) (fun d => callee_dotless) name

theorem LeadsTo.dotless (names : ∀ f ∈ file.functions, Dotless f.name) (leads : LeadsTo file n) : Dotless n := by
  cases leads with
  | own runs => rcases runs with rfl | rfl <;> unfold Dotless <;> decide
  | through declared _ _ =>
    obtain ⟨f, member, rfl⟩ := declared
    exact names f member

theorem readUrlFile_only {fixed : String} (given : ∀ n, AtRunTime n → fixedUrl? p n = some fixed)
    (parsed : answer (parseFile tree p) s = some file) (fresh : ∀ n, Dotless n → s.cache.url? p n = none) :
    Only p fixed (LeadsTo file) (after (readUrlFile tree p) s) := by
  have start : Only p fixed (LeadsTo file) { s with reads := s.reads ++ [p] } := by
    intro n url leads found
    exact absurd ((fresh n (leads.dotless (parseFile_names parsed))).symm.trans found) nofun
  rw [readUrlFile_parsed parsed, storeFile, after_bind]
  refine storeDelegations_only (storeBuilders_only start ?_) ?_
  · intro f member url builds leads
    cases leads with
    | own runs => rw [given _ runs, Option.getD_some]
    | through _ delegates _ =>
      rw [delegates f member rfl] at builds
      cases builds
  · rw [storeBuilders_answer]
    intro d member leads
    obtain ⟨f, inside, name, shape⟩ := delegations_mem.mp member
    cases leads with
    | own runs => exact .inl (given _ runs)
    | through _ delegates further =>
      obtain rfl := UrlFunction.delegates.inj ((delegates f inside name).symm.trans shape)
      cases own : fixedUrl? p d.1 with
      | none => exact .inr ⟨rfl, further⟩
      | some url => exact .inl (congrArg some (fixedUrl?_unique own (given "baseURL" (.inl rfl))))

-- A function whose URL is put together at run time, or that leads to one, has the fixed URL if it is
-- reached from a function that joins segments, and no URL otherwise.
theorem fixed_exact (place : endsWith p.text "dns/v2/ptrrecords/urls.go" = true)
    (parsed : answer (parseFile tree p) s = some file) (fresh : ∀ n, Dotless n → s.cache.url? p n = none)
    (leads : LeadsTo file n) :
    ((after (readUrlFile tree p) s).cache.url? p n =
        some "reverse/floatingips/\x7bregion\x7d:\x7bfloatingip_id\x7d" ↔
      Reached (Joins file) (delegations file) n) ∧
    ((after (readUrlFile tree p) s).cache.url? p n = none ↔ ¬ Reached (Joins file) (delegations file) n) := by
  have only := readUrlFile_only (fun n runs => fixedUrl?_place place runs) parsed fresh
  rw [← readUrlFile_has parsed fresh (leads.dotless (parseFile_names parsed)), Has]
  cases found : (after (readUrlFile tree p) s).cache.url? p n with
  | none => simp
  | some url => simp [only n url leads found]

def records : Path := ⟨"sdk/dns/v2/ptrrecords/urls.go"⟩

def recording (functions : List String) : SourceTree := .ofFiles [(records, .text (String.join functions))]

def joiningResource : String := "func resourceURL()\x7bc.ServiceURL(\"ptrs\", id)\x7d\n"

def getting : String := "func getURL()\x7breturn resourceURL()\x7d\n"

def assembling : String := "func baseURL()\x7breturn c.Endpoint + id\x7d\n"

theorem recording_parsed :
    (answer (parseFile (recording [getting, joiningResource]) records) {}).map (fun file =>
        (file.functions.map fun f => (f.name, builderUrl? file.literal? f.source), delegations file)) =
      some ([("getURL", none), ("resourceURL", some "ptrs/\x7bid\x7d")], [("getURL", "resourceURL")]) := by
  decide +kernel

theorem fixed_exact_records :
    ∃ file, answer (parseFile (recording [getting, joiningResource]) records) {} = some file ∧
      LeadsTo file "getURL" ∧ Reached (Joins file) (delegations file) "getURL" ∧
      (after (readUrlFile (recording [getting, joiningResource]) records) {}).cache.url? records "getURL" =
        some "reverse/floatingips/\x7bregion\x7d:\x7bfloatingip_id\x7d" := by
  obtain ⟨file, parsed, both⟩ := Option.map_eq_some_iff.mp recording_parsed
  obtain ⟨functions, ds⟩ := Prod.mk.inj both
  have joins : Joins file "resourceURL" := by
    have second : ("resourceURL", some "ptrs/\x7bid\x7d") ∈ file.functions.map fun f =>
        (f.name, builderUrl? file.literal? f.source) := by rw [functions]; decide
    obtain ⟨f, member, same⟩ := List.mem_map.mp second
    exact ⟨_, f, member, (Prod.mk.inj same).1, (Prod.mk.inj same).2⟩
  have leads : LeadsTo file "getURL" := by
    have there : ("getURL", "resourceURL") ∈ delegations file := by simp [ds]
    obtain ⟨f, member, name, shape⟩ := delegations_mem.mp there
    refine .through ⟨f, member, name⟩ (fun g member' name' => ?_) (.own (.inr rfl))
    have distinct : (file.functions.map (·.name)).Nodup := by
      have names := congrArg (List.map Prod.fst) functions
      rw [List.map_map] at names
      exact names ▸ (by decide)
    obtain rfl := List.inj_on_of_nodup_map distinct member' member (name'.trans name.symm)
    exact shape
  have reached : Reached (Joins file) (delegations file) "getURL" := by
    rw [ds]
    exact @Reached.delegated _ [] [] "getURL" "resourceURL" (.known joins)
  have place : endsWith records.text "dns/v2/ptrrecords/urls.go" = true := by decide
  exact ⟨file, parsed, leads, reached, (fixed_exact place parsed (fun _ _ => rfl) leads).1.mpr reached⟩

-- A body that neither joins segments nor calls a builder has no URL, although it is fixed.
theorem assembled_without_url :
    fixedUrl? records "baseURL" = some "reverse/floatingips/\x7bregion\x7d:\x7bfloatingip_id\x7d" ∧
      (answer (parseFile (recording [assembling]) records) {}).map (·.functions.map (·.name)) = some ["baseURL"] ∧
      (after (readUrlFile (recording [assembling]) records) {}).cache.url? records "baseURL" = none := by
  decide +kernel

end Files

end Rest

end CallAtlas.Sdk
