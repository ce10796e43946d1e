import CallAtlas.Proofs.Document.ProjectIds
import CallAtlas.Proofs.Text.Segments

namespace CallAtlas

open CallAtlas.Text

-- A path that begins with a slash, has no two in a row, and ends in one only if it is nothing else.
structure NormalPath (path : String) : Prop where
  rooted : startsWith path "/" = true
  gapless : Gapless path
  ended : endsWith path "/" = true → path = "/"

section

variable {names : List String}

theorem bare_of_slashless {text : List Char} (slashless : '/' ∉ text) : Bare text := by
  have other : ∀ c ∈ text, isSlash c = false := by
    intro c member
    exact beq_eq_false_iff_ne.mpr fun same => slashless (same ▸ member)
  exact ⟨fun c first => other c (List.mem_of_head? first), fun c last => other c (List.mem_of_getLast? last)⟩

-- Two slashes in a row would have an empty name between them.
theorem joined_gapless (filled : ∀ n ∈ names, n ≠ "") (slashless : ∀ n ∈ names, '/' ∉ n.toList) :
    Gapless ("/" ++ join "/" names) := by
  rw [gapless_iff]
  intro gap
  obtain ⟨front, back, some_front, some_back, pieces⟩ := splitBy_gap gap
  obtain ⟨first, front, rfl⟩ := List.exists_cons_of_ne_nil some_front
  have whole : split '/' ("/" ++ join "/" names) = "" :: split '/' (join "/" names) := by
    have slash := Path.split_append_slash "" (join "/" names)
    rwa [String.empty_append] at slash
  rw [split, pieces, List.cons_append, List.map_cons, List.cons.injEq] at whole
  by_cases none : names = []
  · subst none
    have length := congrArg List.length whole.2
    have few : (split '/' (join "/" [])).length = 1 := by decide
    rw [few, List.length_map, List.length_append, List.length_cons] at length
    have := List.length_pos_iff.mpr some_back
    omega
  · rw [split_join slashless none] at whole
    have empty : "" ∈ names := by
      rw [← whole.2]
      simp
    exact filled "" empty rfl

theorem joined_normal (filled : ∀ n ∈ names, n ≠ "") (slashless : ∀ n ∈ names, '/' ∉ n.toList) :
    NormalPath ("/" ++ join "/" names) := by
  refine ⟨?_, joined_gapless filled slashless, ?_⟩
  · simp [startsWith, List.isPrefixOf]
  · intro ended
    by_cases none : names = []
    · subst none
      rfl
    · have some_text := Call.join_filled filled none
      have bare := Call.join_bare filled fun n member => bare_of_slashless (slashless n member)
      obtain ⟨front, whole⟩ := List.isSuffixOf_iff_suffix.mp ended
      have last : (join "/" names).toList.getLast? = some '/' := by
        have chars := congrArg List.getLast? whole
        rw [String.toList_append, List.getLast?_append, List.getLast?_append] at chars
        cases final : (join "/" names).toList.getLast? with
        | none => exact absurd (String.toList_eq_nil_iff.mp (List.getLast?_eq_none_iff.mp final)) some_text
        | some c =>
          rw [final] at chars
          exact chars.symm
      cases (bare.last '/' last).symm.trans rfl

end

theorem join_append {front back : List String} (some_front : front ≠ []) (some_back : back ≠ []) :
    join "/" (front ++ back) = join "/" front ++ "/" ++ join "/" back :=
  String.intercalate_append_of_ne_nil some_front some_back

-- Parts that are joined themselves can be joined at once.
theorem join_joined {parts : List (List String)} (filled : ∀ part ∈ parts, ∀ n ∈ part, n ≠ "") :
    join "/" ((parts.map (join "/")).filter (· != "")) = join "/" parts.flatten := by
  induction parts with
  | nil => rfl
  | cons part rest ih =>
    obtain ⟨first, others⟩ := List.forall_mem_cons.mp filled
    have further := ih others
    have rest_filled : ∀ n ∈ rest.flatten, n ≠ "" := by
      intro n member
      obtain ⟨names, inside, named⟩ := List.mem_flatten.mp member
      exact others names inside n named
    have kept_filled : ∀ text ∈ (rest.map (join "/")).filter (· != ""), text ≠ "" := by
      intro text member
      simpa using (List.mem_filter.mp member).2
    rw [List.map_cons, List.flatten_cons]
    by_cases none : part = []
    · subst none
      rw [List.filter_cons_of_neg (by simp [join]), further, List.nil_append]
    · rw [List.filter_cons_of_pos (by simpa using Call.join_filled first none)]
      generalize (rest.map (join "/")).filter (· != "") = kept at further kept_filled
      by_cases last : kept = []
      · subst last
        have done : rest.flatten = [] := by
          by_contra more
          exact Call.join_filled rest_filled more further.symm
        rw [done, List.append_nil]
        exact String.intercalate_singleton
      · have more : rest.flatten ≠ [] := by
          intro done
          rw [done] at further
          exact Call.join_filled kept_filled last further
        rw [join_append none more, ← further]
        exact String.intercalate_cons_of_ne_nil last

namespace Call

-- The texts of which a path is put together.
def texts (c : Call) : List String :=
  [c.service.version, if c.service.includesProjectId then projectId else "", c.service.resourceBase, c.url]

theorem fullPath_texts {c : Call} (plain : c.annotated = false) :
    c.fullPath = "/" ++ join "/" ((c.texts.map trimSlashes).filter (· != "")) := by
  have origin : c.origin ≠ .comment := by simpa [annotated] using plain
  unfold fullPath
  rw [if_neg origin]
  rfl

-- The segments of a call's path: what its service puts before the URL, and then the URL.
def segments (c : Call) : List String :=
  Text.segments c.service.version ++ (if c.service.includesProjectId then [projectId] else []) ++
    Text.segments c.service.resourceBase ++ Text.segments c.url

theorem segments_texts (c : Call) : (c.texts.map Text.segments).flatten = c.segments := by
  have project : Text.segments (if c.service.includesProjectId then projectId else "") =
      if c.service.includesProjectId then [projectId] else [] := by
    split
    · exact segments_name (by decide) (by decide)
    · exact segments_empty
  simp [texts, segments, project]

theorem segments_named (c : Call) : ∀ n ∈ c.segments, n ≠ "" ∧ '/' ∉ n.toList := by
  intro n member
  rw [← segments_texts] at member
  obtain ⟨names, among, inside⟩ := List.mem_flatten.mp member
  obtain ⟨text, _, rfl⟩ := List.mem_map.mp among
  exact ⟨segments_filled n inside, segments_slashless n inside⟩

theorem fullPath_eq {c : Call} (plain : c.annotated = false) (version : Gapless c.service.version)
    (base : Gapless c.service.resourceBase) (url : Gapless c.url) :
    c.fullPath = "/" ++ join "/" c.segments := by
  have gapless : ∀ text ∈ c.texts, Gapless text := by
    have project : Gapless (if c.service.includesProjectId then projectId else "") := by
      split <;> decide
    simp [texts, version, project, base, url]
  have parts : c.texts.map trimSlashes = (c.texts.map Text.segments).map (join "/") := by
    rw [List.map_map]
    exact List.map_congr_left fun text member => (join_segments_trimmed (gapless text member)).symm
  have filled : ∀ names ∈ c.texts.map Text.segments, ∀ n ∈ names, n ≠ "" := by
    intro names member
    obtain ⟨text, _, rfl⟩ := List.mem_map.mp member
    exact segments_filled
  rw [fullPath_texts plain, parts, join_joined filled, segments_texts]

-- The path of a call that is no annotation is normal and has its segments. No slash at the ends of the texts
-- it comes from makes a difference.
theorem fullPath_normal {c : Call} (plain : c.annotated = false) (version : Gapless c.service.version)
    (base : Gapless c.service.resourceBase) (url : Gapless c.url) :
    NormalPath c.fullPath ∧ Text.segments c.fullPath = c.segments ∧
      ∀ version' base' url', SameInside c.service.version version' → SameInside c.service.resourceBase base' →
        SameInside c.url url' →
        fullPath { c with url := url', service := { c.service with version := version', resourceBase := base' } } =
          c.fullPath := by
  have filled : ∀ n ∈ c.segments, n ≠ "" := fun n member => (c.segments_named n member).1
  have slashless : ∀ n ∈ c.segments, '/' ∉ n.toList := fun n member => (c.segments_named n member).2
  have whole := fullPath_eq plain version base url
  refine ⟨?_, ?_, ?_⟩
  · rw [whole]
    exact joined_normal filled slashless
  · rw [whole, segments_rooted, segments_joined filled slashless]
  · intro version' base' url' same_version same_base same_url
    let other : Call :=
      { c with url := url', service := { c.service with version := version', resourceBase := base' } }
    have trimmed : ∀ {a b : String}, SameInside a b → trimSlashes b = trimSlashes a :=
      fun same => same.trimmed.symm
    have texts : other.texts.map trimSlashes = c.texts.map trimSlashes := by
      simp only [other, Call.texts, List.map_cons, List.map_nil, trimmed same_version, trimmed same_base,
        trimmed same_url]
      rfl
    rw [fullPath_texts plain, ← texts]
    exact fullPath_texts (c := other) plain

def addon (version base url : String) : Call where
  url := url
  method := .get
  service := { name := "cce", version, resourceBase := base }

theorem fullPath_normal_addon :
    (addon "api/v3/" "/addons" "\x7bid\x7d/").annotated = false ∧ Gapless "api/v3/" ∧ Gapless "/addons" ∧
      Gapless "\x7bid\x7d/" ∧ NormalPath (addon "api/v3/" "/addons" "\x7bid\x7d/").fullPath ∧
      Text.segments (addon "api/v3/" "/addons" "\x7bid\x7d/").fullPath =
        ["api", "v3", projectId, "addons", "\x7bid\x7d"] ∧
      (addon "//api/v3" "addons///" "\x7bid\x7d").fullPath = (addon "api/v3/" "/addons" "\x7bid\x7d/").fullPath := by
  have version : Gapless "api/v3/" := by decide
  have base : Gapless "/addons" := by decide
  have url : Gapless "\x7bid\x7d/" := by decide
  obtain ⟨normal, segments, respelled⟩ :=
    @fullPath_normal (addon "api/v3/" "/addons" "\x7bid\x7d/") rfl version base url
  refine ⟨rfl, version, base, url, normal, segments.trans (by decide +kernel), ?_⟩
  refine respelled "//api/v3" "addons///" "\x7bid\x7d" ?_ ?_ ?_
  · exact ⟨"api/v3".toList, 0, 1, 2, 0, by decide, by decide⟩
  · exact ⟨"addons".toList, 1, 0, 0, 3, by decide, by decide⟩
  · exact ⟨"\x7bid\x7d".toList, 0, 1, 0, 0, by decide, by decide⟩

end Call

end CallAtlas
