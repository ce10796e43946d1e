import CallAtlas.Call.Distinct
import CallAtlas.Proofs.Document.Operations
import CallAtlas.Proofs.Text.Lower

namespace CallAtlas

open CallAtlas.Text

namespace Call

theorem first_mem_distinct {calls : List Call} {c k : Call}
    (first : calls.find? (fun d => d.key = c.key) = some k) : k ∈ distinct calls := by
  refine @SortedMap.mem_values_of_get? _ _ _ _ c.key k ?_
  rw [SortedMap.get?_foldl_insertNew key calls SortedMap.sorted_empty, first]
  rfl

def annotated (c : Call) : Bool := c.origin == .comment

def serviceParts (c : Call) : List String :=
  if c.annotated then []
  else
    let project := if c.service.includesProjectId then "\x7bproject_id\x7d" else ""
    ([c.service.version, project, c.service.resourceBase].map trimSlashes).filter (· != "")

-- The path that a service puts before its URLs. Annotations have none.
def servicePath (c : Call) : String := join "/" c.serviceParts

def urlPart (url : String) : List String := [trimSlashes url].filter (· != "")

-- A URL that is written as a path is: with one slash before it and none after.
def Rooted (url : String) : Prop := url = "/" ++ trimSlashes url

theorem fullPath_annotated {c : Call} (annotated : c.annotated = true) : c.fullPath = c.url := by
  have origin : c.origin = .comment := by simpa [Call.annotated] using annotated
  simp [fullPath, origin]

theorem fullPath_plain {c : Call} (plain : c.annotated = false) :
    c.fullPath = "/" ++ join "/" (c.serviceParts ++ urlPart c.url) := by
  have origin : c.origin ≠ .comment := by simpa [Call.annotated] using plain
  unfold fullPath serviceParts urlPart
  rw [if_neg origin, plain]
  simp only [Bool.false_eq_true, if_false]
  rw [← List.filter_append]
  rfl

theorem serviceParts_filled (c : Call) : ∀ part ∈ c.serviceParts, part ≠ "" := by
  unfold serviceParts
  split
  · exact nofun
  · intro part member
    simpa using (List.mem_filter.mp member).2

theorem servicePath_annotated {c : Call} (annotated : c.annotated = true) : c.servicePath = "" := by
  simp [servicePath, serviceParts, annotated, join]

theorem toLower_trimSlashes (s : String) : toLower (trimSlashes s) = trimSlashes (toLower s) :=
  toLower_trimMatches s

theorem toLower_urlPart (url : String) : (urlPart url).map toLower = urlPart (toLower url) := by
  unfold urlPart
  rw [← toLower_trimSlashes]
  by_cases empty : trimSlashes url = ""
  · simp [empty, toLower_eq_empty]
  · simp [empty, toLower_eq_empty]

theorem toLower_fullPath {c : Call} (plain : c.annotated = false) :
    toLower c.fullPath = "/" ++ join "/" (c.serviceParts.map toLower ++ urlPart (toLower c.url)) := by
  rw [fullPath_plain plain, toLower_root, toLower_join, List.map_append, toLower_urlPart]

theorem join_filled {parts : List String} (filled : ∀ part ∈ parts, part ≠ "")
    (some_part : parts ≠ []) : join "/" parts ≠ "" := by
  cases parts with
  | nil => exact absurd rfl some_part
  | cons part rest =>
    have first : part ≠ "" := filled part List.mem_cons_self
    cases rest with
    | nil => simpa [join] using first
    | cons next more => simp [join, first]

theorem join_ne_longer {a tail : List String} (some_part : a ≠ []) (some_tail : tail ≠ []) :
    join "/" tail ≠ join "/" (a ++ tail) := by
  intro same
  unfold join at same
  rw [String.intercalate_append_of_ne_nil some_part some_tail] at same
  have lengths := congrArg String.length same
  simp only [String.length_append] at lengths
  have : "/".length = 1 := rfl
  omega

-- Parts before the same end can be told from the whole.
theorem join_append_inj {a b tail : List String} (a_filled : ∀ part ∈ a, part ≠ "")
    (b_filled : ∀ part ∈ b, part ≠ "") :
    join "/" (a ++ tail) = join "/" (b ++ tail) ↔ join "/" a = join "/" b := by
  by_cases end_ : tail = []
  · subst end_; simp
  · by_cases a_none : a = []
    -- With parts on one side only, that side is longer.
    · subst a_none
      by_cases b_none : b = []
      · subst b_none; simp
      · have left := join_ne_longer b_none end_
        have right := join_filled b_filled b_none
        simp only [List.nil_append, left, false_iff]
        exact fun same => right same.symm
    · by_cases b_none : b = []
      · subst b_none
        have left := join_ne_longer a_none end_
        have right := join_filled a_filled a_none
        simp only [List.nil_append]
        exact ⟨fun same => absurd same.symm left, fun same => absurd same right⟩
      · unfold join
        rw [String.intercalate_append_of_ne_nil a_none end_,
          String.intercalate_append_of_ne_nil b_none end_]
        constructor
        · intro same
          have chars := congrArg String.toList same
          simp only [String.toList_append] at chars
          exact String.toList_inj.mp (List.append_cancel_right (List.append_cancel_right chars))
        · intro same
          rw [same]

theorem lower_filled (c : Call) : ∀ part ∈ c.serviceParts.map toLower, part ≠ "" := by
  intro part member
  obtain ⟨text, inside, rfl⟩ := List.mem_map.mp member
  rw [ne_eq, toLower_eq_empty]
  exact c.serviceParts_filled text inside

theorem toLower_servicePath (c : Call) :
    toLower c.servicePath = join "/" (c.serviceParts.map toLower) := toLower_join _

theorem toLower_servicePath_empty {c : Call} : toLower c.servicePath = "" ↔ c.serviceParts = [] := by
  rw [toLower_eq_empty]
  constructor
  · intro empty
    by_cases none : c.serviceParts = []
    · exact none
    · exact absurd empty (join_filled c.serviceParts_filled none)
  · intro none
    simp [servicePath, none, join]

theorem trimSlashes_toList (s : String) : (trimSlashes s).toList = trimBy isSlash s.toList := by
  rw [trimSlashes, trimMatches, String.toList_ofList]
  rfl

theorem trimSlashes_bare (s : String) : Bare (trimSlashes s).toList := by
  obtain ⟨_, _, _, bare⟩ := trimBy_split s.toList
  rwa [trimSlashes_toList]

theorem serviceParts_bare (c : Call) : ∀ part ∈ c.serviceParts, Bare part.toList := by
  unfold serviceParts
  split
  · exact nofun
  · intro part member
    obtain ⟨text, _, rfl⟩ := List.mem_map.mp (List.mem_filter.mp member).1
    exact trimSlashes_bare text

theorem lower_bare (c : Call) : ∀ part ∈ c.serviceParts.map toLower, Bare part.toList := by
  intro part member
  obtain ⟨text, inside, rfl⟩ := List.mem_map.mp member
  rw [toLower_toList]
  exact lowerChars_bare (c.serviceParts_bare text inside)

theorem join_bare {parts : List String} (filled : ∀ part ∈ parts, part ≠ "")
    (bare : ∀ part ∈ parts, Bare part.toList) : Bare (join "/" parts).toList := by
  induction parts with
  | nil => exact ⟨nofun, nofun⟩
  | cons part rest ih =>
    obtain ⟨part_filled, rest_filled⟩ := List.forall_mem_cons.mp filled
    obtain ⟨part_bare, bare⟩ := List.forall_mem_cons.mp bare
    have rest_bare := ih rest_filled bare
    by_cases none : rest = []
    · subst none; simpa [join] using part_bare
    · have further := join_filled rest_filled none
      unfold join at rest_bare further ⊢
      rw [String.intercalate_cons_of_ne_nil none, String.toList_append, String.toList_append]
      exact part_bare.between rest_bare (mt String.toList_eq_nil_iff.mp part_filled)
        (mt String.toList_eq_nil_iff.mp further) _

theorem urlPart_filled (url : String) : ∀ part ∈ urlPart url, part ≠ "" := by
  intro part member
  simpa using (List.mem_filter.mp member).2

theorem urlPart_bare (url : String) : ∀ part ∈ urlPart url, Bare part.toList := by
  intro part member
  rw [List.mem_singleton.mp (List.mem_filter.mp member).1]
  exact trimSlashes_bare url

theorem join_urlPart (url : String) : join "/" (urlPart url) = trimSlashes url := by
  unfold urlPart
  by_cases empty : trimSlashes url = ""
  · simp [empty, join]
  · simp [empty, join]

-- With something before it, a URL would be longer than itself.
theorem url_ne_longer {parts : List String} (filled : ∀ part ∈ parts, part ≠ "")
    (bare : ∀ part ∈ parts, Bare part.toList) (some_part : parts ≠ []) (url : String) :
    url ≠ "/" ++ join "/" (parts ++ urlPart url) := by
  intro same
  have whole_filled : join "/" (parts ++ urlPart url) ≠ "" :=
    join_filled (List.forall_mem_append.mpr ⟨filled, urlPart_filled url⟩) (by simp [some_part])
  have whole_bare : Bare (join "/" (parts ++ urlPart url)).toList :=
    join_bare (List.forall_mem_append.mpr ⟨filled, urlPart_filled url⟩)
      (List.forall_mem_append.mpr ⟨bare, urlPart_bare url⟩)
  generalize spelled : join "/" (parts ++ urlPart url) = whole at *
  have own : trimSlashes url = whole := by
    rw [same, ← String.toList_inj, trimSlashes_toList, String.toList_append]
    simpa using trimBy_bare whole_bare 1 0
  have part : urlPart url = [whole] := by simp [urlPart, own, whole_filled]
  rw [part] at spelled
  have alone : join "/" [whole] = whole := String.intercalate_singleton
  exact join_ne_longer some_part (List.cons_ne_nil whole []) (alone.trans spelled.symm)

-- An annotation and a call through a service have one path only if the service adds nothing and the
-- URL is written as a path.
theorem mixed_exact {c : Call} (plain : c.annotated = false) :
    toLower c.url = toLower c.fullPath ↔ toLower c.servicePath = "" ∧ Rooted (toLower c.url) := by
  rw [toLower_fullPath plain, toLower_servicePath_empty]
  generalize toLower c.url = url
  constructor
  · intro same
    by_cases none : c.serviceParts = []
    · rw [none, List.map_nil, List.nil_append, join_urlPart] at same
      exact ⟨none, same⟩
    · exact absurd same (url_ne_longer c.lower_filled c.lower_bare (by simpa using none) url)
  · rintro ⟨none, rooted⟩
    rw [none, List.map_nil, List.nil_append, join_urlPart]
    exact rooted

-- Exactly when two calls with one identity have one path, letter case apart.
theorem fullPath_exact {k r : Call} (same : k.key = r.key) :
    toLower k.fullPath = toLower r.fullPath ↔
      toLower k.servicePath = toLower r.servicePath ∧
        (k.annotated = r.annotated ∨ Rooted (toLower r.url)) := by
  have urls : toLower k.url = toLower r.url := congrArg Identity.url same
  have empty : toLower "" = "" := rfl
  cases k_origin : k.annotated with
  | true =>
    rw [fullPath_annotated k_origin, servicePath_annotated k_origin, urls]
    cases r_origin : r.annotated with
    | true => simp [fullPath_annotated r_origin, servicePath_annotated r_origin]
    | false =>
      rw [mixed_exact r_origin, eq_comm]
      simp [empty]
  | false =>
    cases r_origin : r.annotated with
    | true =>
      rw [fullPath_annotated r_origin, servicePath_annotated r_origin, ← urls, eq_comm,
        mixed_exact k_origin]
      simp [empty]
    | false =>
      have parts := @join_append_inj _ _ (urlPart (toLower r.url)) k.lower_filled r.lower_filled
      rw [toLower_fullPath k_origin, toLower_fullPath r_origin, urls, toLower_servicePath,
        toLower_servicePath]
      simp [parts]

theorem first_of_identity {calls : List Call} {r : Call} (member : r ∈ calls) :
    ∃ k, calls.find? (fun c => c.key = r.key) = some k ∧ k.key = r.key := by
  cases found : calls.find? (fun c => c.key = r.key) with
  | none => simpa using List.find?_eq_none.mp found r member
  | some k => exact ⟨k, rfl, by simpa using List.find?_some found⟩

-- The path documented for a call is that of the first call of its identity.
theorem merged_documented (resource : String) (pending : Bool) (settings : DocumentSettings)
    (registry : Catalog.Registry) {calls : List Call} {r : Call} (member : r ∈ calls) :
    ∃ k, calls.find? (fun c => c.key = r.key) = some k ∧
      ((Document.build resource (distinct calls) pending settings registry).paths.operation?
        k.fullPath r.method.text).isSome = true ∧
      (toLower k.fullPath = toLower r.fullPath ↔
        toLower k.servicePath = toLower r.servicePath ∧
          (k.annotated = r.annotated ∨ Rooted (toLower r.url))) := by
  obtain ⟨k, first, same⟩ := first_of_identity member
  refine ⟨k, first, ?_, fullPath_exact same⟩
  have methods : k.method.text = r.method.text := congrArg Identity.method same
  exact (Document.pathsOf_operation? _ _ _).mpr ⟨k, first_mem_distinct first, rfl, methods.symm⟩

def listing (version : String) : Call where
  url := "servers"
  method := .get
  service := { name := "ecs", version }

theorem merged_documented_case :
    ((Document.build "resource_server" (distinct [listing "v1", listing "V1"]) false
        ⟨"cloud", "latest", "host"⟩ {}).paths.operation? (listing "v1").fullPath "get").isSome = true ∧
      toLower (listing "v1").fullPath = toLower (listing "V1").fullPath := by
  obtain ⟨k, first, documented, path⟩ :=
    merged_documented "resource_server" false ⟨"cloud", "latest", "host"⟩ {}
      (List.mem_cons_of_mem (listing "v1") (List.mem_singleton_self (listing "V1")))
  have found : [listing "v1", listing "V1"].find? (fun c => c.key = (listing "V1").key) =
      some (listing "v1") := by decide +kernel
  cases first.symm.trans found
  exact ⟨documented, path.mpr ⟨by decide +kernel, .inl rfl⟩⟩

-- The path of the second version is in no letter case among those documented.
theorem second_version_lost :
    ¬ ∀ r ∈ [listing "v1", listing "v2"], ∃ path,
      ((Document.build "resource_server" (distinct [listing "v1", listing "v2"]) false
        ⟨"cloud", "latest", "host"⟩ {}).paths.operation? path r.method.text).isSome = true ∧
      toLower path = toLower r.fullPath := by
  intro kept
  obtain ⟨path, documented, same⟩ := kept (listing "v2") (by simp)
  obtain ⟨c, member, rfl, _⟩ := (Document.pathsOf_operation? _ _ _).mp documented
  have merged : distinct [listing "v1", listing "v2"] = [listing "v1"] := by decide +kernel
  rw [merged, List.mem_singleton] at member
  subst member
  revert same
  decide +kernel

end Call

end CallAtlas
