import CallAtlas.Proofs.Go.FunctionNames
import CallAtlas.Proofs.Path.Join
import CallAtlas.Proofs.Sdk.Keys
import CallAtlas.Proofs.Sdk.Resolving
import CallAtlas.Proofs.Text.Matches
import CallAtlas.Sdk.Rest

namespace CallAtlas.Sdk

open CallAtlas.Text Resolving

theorem Dotless.of_word {s : String} (all : s.toList.all isWord = true) : Dotless s :=
  .of_all (by decide) all

theorem Resolving.parseFile_words {tree : SourceTree} {path : Path} {s : State} {file : Go.SourceFile}
    (parsed : answer (parseFile tree path) s = some file) :
    ∀ f ∈ file.functions, f.name.toList.all Go.isNamePart = true := by
  unfold parseFile at parsed
  simp only [answer_bind] at parsed
  split at parsed
  · cases parsed
  · split at parsed
    · rename_i read
      cases parsed
      exact Go.SourceFile.ofBody_names read
    · cases parsed

theorem Resolving.parseFile_names {tree : SourceTree} {path : Path} {s : State} {file : Go.SourceFile}
    (parsed : answer (parseFile tree path) s = some file) : ∀ f ∈ file.functions, Dotless f.name :=
  fun f member => .of_all (by decide) (parseFile_words parsed f member)

-- A file that stands under two paths is read alike.
theorem Resolving.parseFile_respelled {tree : SourceTree} {p q : Path} (same : tree.read? p = tree.read? q)
    (s t : State) :
    answer (parseFile tree q) t = (answer (parseFile tree p) s).map ({ · with path := q }) := by
  unfold parseFile
  simp only [answer_bind]
  rw [← same]
  cases tree.read? p with
  | none => rfl
  | some body =>
    dsimp only
    cases read : Go.SourceFile.ofBody p body with
    | ok file =>
      rw [Go.SourceFile.ofBody_path read q]
      rfl
    | error e =>
      cases other : Go.SourceFile.ofBody q body with
      | ok file =>
        rw [Go.SourceFile.ofBody_path other p] at read
        cases read
      | error e' => rfl

-- Two states that remember the same of a URL file. Other files and the packages do not count.
structure Alike (p : Path) (s t : State) : Prop where
  marked : s.cache.urlFiles.any (·.same p) = t.cache.urlFiles.any (·.same p)
  urls : ∀ f, Dotless f → s.cache.url? p f = t.cache.url? p f

def Steady (p : Path) (m : Resolving α) : Prop :=
  ∀ s t, Alike p s t → answer m s = answer m t ∧ Alike p (after m s) (after m t)

-- As much is remembered of a URL file under one path as under another.
structure Respelled (p q : Path) (s t : State) : Prop where
  marked : s.cache.urlFiles.any (·.same p) = t.cache.urlFiles.any (·.same q)
  urls : ∀ f, Dotless f → s.cache.url? p f = t.cache.url? q f

def Parallel (p q : Path) (m n : Resolving α) : Prop :=
  ∀ s t, Respelled p q s t → answer m s = answer n t ∧ Respelled p q (after m s) (after n t)

section

variable {p q : Path}

theorem Parallel.pure (a : α) : Parallel p q (Pure.pure a : Resolving α) (Pure.pure a) :=
  fun _ _ alike => ⟨rfl, alike⟩

theorem Parallel.bind {m n : Resolving α} {f g : α → Resolving β} (first : Parallel p q m n)
    (second : ∀ s, Parallel p q (f (answer m s)) (g (answer m s))) :
    Parallel p q (m >>= f) (n >>= g) := by
  intro s t alike
  obtain ⟨same, middle⟩ := first s t alike
  have further := second s _ _ middle
  simp only [answer_bind, after_bind]
  rwa [← same]

theorem Parallel.warn (text text' : String) : Parallel p q (Resolving.warn text) (Resolving.warn text') :=
  fun _ _ alike => ⟨rfl, alike⟩

theorem alike_iff {s t : State} : Alike p s t ↔ Respelled p p s t :=
  ⟨fun alike => ⟨alike.marked, alike.urls⟩, fun alike => ⟨alike.marked, alike.urls⟩⟩

-- So what holds of two paths with the same file holds of one.
theorem steady_iff {m : Resolving α} : Steady p m ↔ Parallel p p m m := by
  simp only [Steady, Parallel, alike_iff]

theorem Steady.pure (a : α) : Steady p (Pure.pure a : Resolving α) := steady_iff.mpr (.pure a)

theorem Steady.bind {m : Resolving α} {f : α → Resolving β} (first : Steady p m)
    (second : ∀ s, Steady p (f (answer m s))) : Steady p (m >>= f) :=
  steady_iff.mpr ((steady_iff.mp first).bind fun s => steady_iff.mp (second s))

theorem Steady.parseFile (tree : SourceTree) (path : Path) : Steady p (Resolving.parseFile tree path) := by
  intro s t alike
  refine ⟨answer_parseFile s tree path t, ?_⟩
  simp only [after_parseFile]
  exact ⟨alike.marked, alike.urls⟩

end

-- `marks` and `reads` are what the work adds to the files marked and to those read.
structure UrlWork (p : Path) (marks reads : List Path) (s t : State) : Prop where
  packages : t.cache.packages = s.cache.packages
  endpoints : t.cache.endpoints = s.cache.endpoints
  urls : ∀ q f, q ≠ p → Dotless f → t.cache.url? q f = s.cache.url? q f
  marked : t.cache.urlFiles = s.cache.urlFiles ++ marks
  read : t.reads = s.reads ++ reads

theorem UrlWork.refl (p : Path) (s : State) : UrlWork p [] [] s s :=
  ⟨rfl, rfl, fun _ _ _ _ => rfl, (List.append_nil _).symm, (List.append_nil _).symm⟩

theorem UrlWork.trans (first : UrlWork p marks reads s t) (second : UrlWork p marks' reads' t u) :
    UrlWork p (marks ++ marks') (reads ++ reads') s u where
  packages := second.packages.trans first.packages
  endpoints := second.endpoints.trans first.endpoints
  urls q f other dotless := (second.urls q f other dotless).trans (first.urls q f other dotless)
  marked := by rw [second.marked, first.marked, List.append_assoc]
  read := by rw [second.read, first.read, List.append_assoc]

-- The file is marked and read if it has not been, and neither if it has.
def UrlUse (p : Path) (s t : State) : Prop :=
  UrlWork p [] [] s t ∨ (s.cache.urlFiles.any (·.same p) = false ∧ UrlWork p [p] [p] s t)

theorem UrlUse.trans (first : UrlUse p s t) (second : UrlUse p t u) : UrlUse p s u := by
  rcases first with kept | ⟨new, used⟩
  · rcases second with kept' | ⟨new, used⟩
    · exact .inl (kept.trans kept')
    · refine .inr ⟨?_, kept.trans used⟩
      rwa [kept.marked, List.append_nil] at new
  · rcases second with kept | ⟨again, _⟩
    · exact .inr ⟨new, used.trans kept⟩
    · simp [used.marked, Path.same_refl] at again

def Uses (p : Path) (m : Resolving α) : Prop := ∀ s, UrlUse p s (after m s)

theorem Uses.pure (p : Path) (a : α) : Uses p (Pure.pure a : Resolving α) := fun s => .inl (.refl p s)

theorem Uses.bind {p : Path} {m : Resolving α} {f : α → Resolving β} (first : Uses p m)
    (second : ∀ a, Uses p (f a)) : Uses p (m >>= f) :=
  fun s => (first s).trans (second _ _)

namespace Rest

theorem url?_insertUrl (c : Cache) (p q : Path) (f g url : String) :
    (c.insertUrl p f url).url? q g =
      if Cache.key q g = Cache.key p f then (c.url? p f).or (some url) else c.url? q g :=
  Cache.lookup_addNew c.urls (Cache.key p f) (Cache.key q g) url

theorem storeUrl_parallel {p q : Path} (fixed : ∀ f, fixedUrl? p f = fixedUrl? q f) (f url : String) :
    Parallel p q (storeUrl p f url) (storeUrl q f url) := by
  intro s t alike
  refine ⟨rfl, alike.marked, ?_⟩
  intro g dotless
  simp only [storeUrl, after_modify, url?_insertUrl, fixed f]
  by_cases name : g = f
  · subst name
    rw [if_pos rfl, if_pos rfl, alike.urls g dotless]
  · rw [if_neg fun keys => name (Cache.key_right_inj keys),
      if_neg fun keys => name (Cache.key_right_inj keys)]
    exact alike.urls g dotless

theorem storeUrl_work {p : Path} {f : String} (name : Dotless f) (url : String) (s : State) :
    UrlWork p [] [] s (after (storeUrl p f url) s) where
  packages := rfl
  endpoints := rfl
  urls q g other dotless := by
    have keys : Cache.key q g ≠ Cache.key p f := fun same => other (Cache.key_inj dotless name same).1
    simp [storeUrl, url?_insertUrl, keys]
  marked := (List.append_nil _).symm
  read := (List.append_nil _).symm

-- The functions that delegate are the same whatever has been stored.
theorem storeBuilders_answer (p : Path) (file : Go.SourceFile) (functions : List Go.Function)
    (s : State) :
    answer (storeBuilders p file functions) s =
      functions.filterMap fun f =>
        match urlFunction file f with
        | .delegates callee => some (f.name, callee)
        | _ => none := by
  induction functions generalizing s with
  | nil => rfl
  | cons f rest ih =>
    rw [List.filterMap_cons, storeBuilders]
    cases urlFunction file f with
    | builds url => exact ih _
    | delegates callee => simp only [answer_bind, answer_pure, ih]
    | neither => exact ih _

theorem storeBuilders_parallel {p q : Path} (fixed : ∀ f, fixedUrl? p f = fixedUrl? q f)
    (file : Go.SourceFile) (functions : List Go.Function) :
    Parallel p q (storeBuilders p file functions) (storeBuilders q { file with path := q } functions) := by
  induction functions with
  | nil => exact .pure []
  | cons f rest ih =>
    have function : urlFunction { file with path := q } f = urlFunction file f := rfl
    simp only [storeBuilders, function]
    cases urlFunction file f with
    | builds url => exact (storeUrl_parallel fixed f.name url).bind fun _ => ih
    | delegates callee => exact ih.bind fun _ => .pure _
    | neither => exact (Parallel.warn _ _).bind fun _ => ih

theorem storeBuilders_work {p : Path} {file : Go.SourceFile} {functions : List Go.Function}
    (names : ∀ f ∈ functions, Dotless f.name) (s : State) :
    UrlWork p [] [] s (after (storeBuilders p file functions) s) := by
  induction functions generalizing s with
  | nil => exact .refl p s
  | cons f rest ih =>
    obtain ⟨name, others⟩ := List.forall_mem_cons.mp names
    have later := ih others
    rw [storeBuilders]
    cases urlFunction file f with
    | builds url => exact (storeUrl_work name url s).trans (later _)
    | delegates callee => exact later s
    | neither => exact later s

theorem urlFunction_callee {file : Go.SourceFile} {f : Go.Function} {callee : String}
    (delegates : urlFunction file f = .delegates callee) : Dotless callee := by
  unfold urlFunction at delegates
  split at delegates
  · cases delegates
  · split at delegates
    · rename_i found
      cases delegates
      exact .of_word (@Pattern.group_within isWord [word "return", .one isBlank]
        [.one isWord, .many isWord] [word "("] _ (by simp [Pattern.Within])
        (Pattern.find?_matched found))
    · cases delegates

theorem storeDelegations_parallel {p q : Path} (fixed : ∀ f, fixedUrl? p f = fixedUrl? q f)
    {delegations : List (String × String)} (callees : ∀ d ∈ delegations, Dotless d.2) :
    Parallel p q (storeDelegations p delegations) (storeDelegations q delegations) := by
  induction delegations with
  | nil => exact .pure ()
  | cons d rest ih =>
    obtain ⟨function, callee⟩ := d
    obtain ⟨first, others⟩ := List.forall_mem_cons.mp callees
    have later := ih others
    intro s t alike
    refine ⟨Subsingleton.elim _ _, ?_⟩
    simp only [storeDelegations, after_bind, answer_get, after_get, ← alike.urls callee first]
    cases s.cache.url? p callee with
    | none => exact (later s t alike).2
    | some url => exact (later _ _ (storeUrl_parallel fixed function url s t alike).2).2

theorem storeDelegations_work {p : Path} {delegations : List (String × String)}
    (names : ∀ d ∈ delegations, Dotless d.1) (s : State) :
    UrlWork p [] [] s (after (storeDelegations p delegations) s) := by
  induction delegations generalizing s with
  | nil => exact .refl p s
  | cons d rest ih =>
    obtain ⟨function, callee⟩ := d
    obtain ⟨name, others⟩ := List.forall_mem_cons.mp names
    have later := ih others
    rw [storeDelegations]
    simp only [after_bind, answer_get, after_get]
    cases s.cache.url? p callee with
    | none => exact later s
    | some url => exact (storeUrl_work name url s).trans (later _)

theorem storeBuilders_mem {p : Path} {file : Go.SourceFile} {functions : List Go.Function} {s : State}
    {d : String × String} (member : d ∈ answer (storeBuilders p file functions) s) :
    ∃ f ∈ functions, d.1 = f.name ∧ urlFunction file f = .delegates d.2 := by
  rw [storeBuilders_answer] at member
  obtain ⟨f, inside, given⟩ := List.mem_filterMap.mp member
  split at given
  · rename_i callee delegates
    cases given
    exact ⟨f, inside, rfl, delegates⟩
  · cases given

theorem readUrlFile_parallel {tree : SourceTree} {p q : Path} (fixed : ∀ f, fixedUrl? p f = fixedUrl? q f)
    (same : tree.read? p = tree.read? q) : Parallel p q (readUrlFile tree p) (readUrlFile tree q) := by
  intro s t alike
  have parsed := parseFile_respelled same s t
  have read : Respelled p q (after (parseFile tree p) s) (after (parseFile tree q) t) := by
    simp only [after_parseFile]
    exact ⟨alike.marked, alike.urls⟩
  refine ⟨Subsingleton.elim _ _, ?_⟩
  unfold readUrlFile
  simp only [after_bind, parsed]
  cases answer (parseFile tree p) s with
  | none => exact read
  | some file =>
    refine ((storeBuilders_parallel fixed file file.functions).bind fun u => ?_) _ _ read |>.2
    refine storeDelegations_parallel fixed ?_
    intro d member
    obtain ⟨f, _, _, delegates⟩ := storeBuilders_mem member
    exact urlFunction_callee delegates

theorem parseFile_work (tree : SourceTree) (p path : Path) (s : State) :
    UrlWork p [] [path] s (after (parseFile tree path) s) := by
  rw [after_parseFile]
  exact ⟨rfl, rfl, fun _ _ _ _ => rfl, (List.append_nil _).symm, rfl⟩

theorem readUrlFile_work (tree : SourceTree) (p : Path) (s : State) :
    UrlWork p [] [p] s (after (readUrlFile tree p) s) := by
  have read := parseFile_work tree p p s
  unfold readUrlFile
  simp only [after_bind]
  cases parsed : answer (parseFile tree p) s with
  | none => exact read
  | some file =>
    have names := parseFile_names parsed
    refine read.trans ((storeBuilders_work names _).trans (storeDelegations_work ?_ _))
    intro d member
    obtain ⟨f, inside, name, _⟩ := storeBuilders_mem member
    exact name ▸ names f inside

-- The state in which a URL of a file is looked up: the file has been read by then.
def opened (tree : SourceTree) (p : Path) (s : State) : State :=
  if s.cache.urlFiles.any (·.same p) then s
  else
    after (readUrlFile tree p) { s with cache := { s.cache with urlFiles := s.cache.urlFiles ++ [p] } }

theorem reported_exact (url : Option String) (text : String) (s : State) :
    let reported : Resolving (Option String) := do
      if url.isNone then warn text
      return url
    answer reported s = url ∧ after reported s = s := by
  cases url <;> exact ⟨rfl, rfl⟩

theorem urlOf_exact (tree : SourceTree) (p : Path) (builder : String) (s : State) :
    answer (urlOf tree p builder) s = (opened tree p s).cache.url? p builder ∧
      after (urlOf tree p builder) s = opened tree p s := by
  unfold urlOf opened Cache.markUrlFile
  cases marked : s.cache.urlFiles.any (·.same p) with
  | true =>
    rw [answer_bind, after_bind, answer_get, after_get, Cache.mark_old marked]
    exact reported_exact _ _ s
  | false =>
    rw [answer_bind, after_bind, answer_get, after_get, Cache.mark_new marked]
    exact reported_exact _ _ _

theorem opened_respelled {tree : SourceTree} {p q : Path} {s t : State} (fixed : ∀ f, fixedUrl? p f = fixedUrl? q f)
    (same : tree.read? p = tree.read? q) (alike : Respelled p q s t) :
    Respelled p q (opened tree p s) (opened tree q t) := by
  have marked := alike.marked
  unfold opened
  rw [← marked]
  split
  · exact alike
  · refine (readUrlFile_parallel fixed same _ _ ?_).2
    exact ⟨by simp [Path.same_refl], alike.urls⟩

theorem urlOf_parallel {tree : SourceTree} {p q : Path} {builder : String}
    (fixed : ∀ f, fixedUrl? p f = fixedUrl? q f) (same : tree.read? p = tree.read? q) (name : Dotless builder) :
    Parallel p q (urlOf tree p builder) (urlOf tree q builder) := by
  intro s t alike
  have middle := opened_respelled fixed same alike
  simp only [urlOf_exact]
  exact ⟨middle.urls builder name, middle⟩

theorem urlOf_steady {p : Path} {builder : String} (tree : SourceTree) (name : Dotless builder) :
    Steady p (urlOf tree p builder) :=
  steady_iff.mpr (urlOf_parallel (fun _ => rfl) rfl name)

theorem urlOf_uses (tree : SourceTree) (p : Path) (builder : String) :
    Uses p (urlOf tree p builder) := by
  intro s
  rw [(urlOf_exact tree p builder s).2, opened]
  split
  · exact .inl (.refl p s)
  · rename_i new
    have marking : UrlWork p [p] [] s
        { s with cache := { s.cache with urlFiles := s.cache.urlFiles ++ [p] } } :=
      ⟨rfl, rfl, fun _ _ _ _ => rfl, rfl, (List.append_nil _).symm⟩
    exact .inr ⟨by simpa using new, marking.trans (readUrlFile_work tree p _)⟩

end Rest

end CallAtlas.Sdk
