import CallAtlas.Path

namespace CallAtlas.Text

variable {p : Char → Bool}

theorem splitBy_ne_nil (text : List Char) : splitBy p text ≠ [] := by
  cases text with
  | nil => exact nofun
  | cons c rest =>
    simp only [splitBy]
    split
    · exact nofun
    · split <;> exact nofun

theorem splitBy_append {c : Char} (sep : p c = true) (first second : List Char) :
    splitBy p (first ++ c :: second) = splitBy p first ++ splitBy p second := by
  induction first with
  | nil => simp [splitBy, sep]
  | cons d rest ih =>
    simp only [List.cons_append, splitBy, ih]
    split
    · rfl
    · cases pieces : splitBy p rest with
      | nil => exact absurd pieces (splitBy_ne_nil rest)
      | cons piece more => rfl

theorem splitBy_whole {text : List Char} (none : ∀ c ∈ text, p c = false) :
    splitBy p text = [text] := by
  induction text with
  | nil => rfl
  | cons c rest ih =>
    obtain ⟨first, others⟩ := List.forall_mem_cons.mp none
    simp [splitBy, first, ih others]

theorem split_whole {sep : Char} {text : String} (none : sep ∉ text.toList) : split sep text = [text] := by
  rw [split, splitBy_whole]
  · simp
  · intro c member
    exact beq_eq_false_iff_ne.mpr fun same => none (same ▸ member)

theorem splitBy_end {tail : List Char} (none : ∀ c ∈ tail, p c = false)
    (text : List Char) : ∃ pieces last, splitBy p (text ++ tail) = pieces ++ [last ++ tail] := by
  induction text with
  | nil => exact ⟨[], [], splitBy_whole none⟩
  | cons c rest ih =>
    obtain ⟨pieces, last, whole⟩ := ih
    rw [List.cons_append, splitBy, whole]
    split
    · exact ⟨[] :: pieces, last, rfl⟩
    · cases pieces with
      | nil => exact ⟨[], c :: last, rfl⟩
      | cons piece more => exact ⟨(c :: piece) :: more, last, rfl⟩

theorem splitBy_pieces {text piece : List Char} (member : piece ∈ splitBy p text) :
    ∀ c ∈ piece, p c = false := by
  induction text generalizing piece with
  | nil => cases List.mem_singleton.mp member; exact nofun
  | cons d rest ih =>
    simp only [splitBy] at member
    split at member
    · rcases List.mem_cons.mp member with rfl | later
      · exact nofun
      · exact ih later
    · rename_i other
      cases pieces : splitBy p rest with
      | nil => exact absurd pieces (splitBy_ne_nil rest)
      | cons first more =>
        rw [pieces] at member ih
        rcases List.mem_cons.mp member with rfl | later
        · intro c inside
          rcases List.mem_cons.mp inside with rfl | inside
          · simpa using other
          · exact ih List.mem_cons_self c inside
        · exact ih (List.mem_cons_of_mem _ later)

theorem intercalate_splitBy (sep : Char) (text : List Char) :
    [sep].intercalate (splitBy (· == sep) text) = text := by
  induction text with
  | nil => rfl
  | cons c rest ih =>
    cases pieces : splitBy (· == sep) rest with
    | nil => exact absurd pieces (splitBy_ne_nil rest)
    | cons piece more =>
      rw [pieces] at ih
      simp only [splitBy, pieces]
      split
      · rename_i here
        cases beq_iff_eq.mp here
        simpa [List.intercalate] using ih
      · cases more <;> simpa [List.intercalate] using ih

theorem join_split {mark : String} {sep : Char} (one : mark.toList = [sep]) (text : String) :
    join mark (split sep text) = text := by
  rw [← String.toList_inj, join, String.toList_intercalate, split, List.map_map, one]
  simp only [Function.comp_def, String.toList_ofList, List.map_id']
  exact intercalate_splitBy sep text.toList

theorem splitBy_subset {sep : Char} {text piece : List Char} (member : piece ∈ splitBy (· == sep) text) :
    piece ⊆ text := by
  intro c inside
  obtain ⟨i, found⟩ := List.mem_iff_getElem?.mp member
  have among : piece ∈ (splitBy (· == sep) text).intersperse [sep] :=
    List.mem_iff_getElem?.mpr ⟨2 * i, List.getElem?_intersperse_two_mul.trans found⟩
  rw [← intercalate_splitBy sep text]
  exact List.mem_flatten.mpr ⟨piece, among, inside⟩

end CallAtlas.Text

namespace CallAtlas.Path

open CallAtlas.Text

theorem same_refl (p : Path) : p.same p = true := by simp [Path.same]

theorem split_append_slash (a b : String) :
    split '/' (a ++ "/" ++ b) = split '/' a ++ split '/' b := by
  have text : (a ++ "/" ++ b).toList = a.toList ++ '/' :: b.toList := by simp
  rw [split, text, splitBy_append (by simp), List.map_append]
  rfl

theorem componentsOf_append (first second : List String) (start : Bool) :
    componentsOf (first ++ second) start =
      componentsOf first start ++ componentsOf second (start && first.isEmpty) := by
  induction first generalizing start with
  | nil => simp [componentsOf]
  | cons piece rest ih =>
    simp only [List.cons_append, componentsOf, ih, Bool.false_and, List.isEmpty_cons, Bool.and_false]
    split
    · rfl
    · split
      · split <;> rfl
      · split <;> rfl

theorem startsWith_slash (a b : String) :
    startsWith (a ++ "/" ++ b) "/" = (decide (a = "") || startsWith a "/") := by
  cases text : a.toList with
  | nil =>
    have empty : a = "" := by simpa using text
    simp [startsWith, empty]
  | cons c rest =>
    have filled : a ≠ "" := by rintro rfl; cases text
    simp only [startsWith, String.toList_append, text, filled, decide_false, Bool.false_or]
    rfl

theorem components_slash (a b : String) :
    components ⟨a ++ "/" ++ b⟩ =
      (if a = "" then [.root] else components ⟨a⟩) ++ componentsOf (split '/' b) false := by
  have pieces : (split '/' a).isEmpty = false := by
    simp [split, List.isEmpty_eq_false_iff, splitBy_ne_nil]
  unfold components isAbsolute
  rw [startsWith_slash, split_append_slash]
  by_cases empty : a = ""
  · subst empty
    simp [split, splitBy, componentsOf]
  · simp only [empty, decide_false, Bool.false_or, if_false]
    split <;> simp [componentsOf_append, pieces]

-- Joined to a path without a text, the first piece stays the first.
theorem components_join (p : Path) {q : String} (relative : startsWith q "/" = false) :
    (p.join q).components = p.components ++ componentsOf (split '/' q) (p.text == "") := by
  obtain ⟨text⟩ := p
  unfold join
  simp only [relative, Bool.false_eq_true, if_false]
  by_cases empty : text = ""
  · subst empty
    have none : components ⟨""⟩ = [] := by
      simp [components, isAbsolute, split, splitBy, componentsOf, startsWith]
    rw [none]
    simp [components, isAbsolute, relative]
  · have filled : (text == "") = false := by simpa using empty
    simp only [filled, Bool.false_or]
    split
    · rename_i slash
      obtain ⟨lead, whole⟩ := List.isSuffixOf_iff_suffix.mp slash
      have spelled : text = String.ofList lead ++ "/" := by
        rw [← String.toList_inj]; simpa using whole.symm
      have without : components ⟨text⟩ = if String.ofList lead = "" then [.root] else components ⟨String.ofList lead⟩ := by
        have := components_slash (String.ofList lead) ""
        simpa [← spelled, split, splitBy, componentsOf] using this
      rw [without, spelled, components_slash]
    · rw [components_slash, if_neg empty]

theorem componentsOf_mem {pieces : List String} {first : Bool} {n : String}
    (member : Component.name n ∈ componentsOf pieces first) : n ∈ pieces := by
  induction pieces generalizing first with
  | nil => cases member
  | cons piece rest ih =>
    simp only [componentsOf] at member
    split at member
    · exact List.mem_cons_of_mem _ (ih member)
    · split at member
      · split at member
        · exact List.mem_cons_of_mem _ (ih (by simpa using member))
        · exact List.mem_cons_of_mem _ (ih member)
      · split at member
        · exact List.mem_cons_of_mem _ (ih (by simpa using member))
        · rcases List.mem_cons.mp member with same | later
          · cases same; exact List.mem_cons_self
          · exact List.mem_cons_of_mem _ (ih later)

theorem name_without_slash {p : Path} {n : String} (member : .name n ∈ p.components) :
    '/' ∉ n.toList := by
  have piece : n ∈ split '/' p.text := by
    unfold components at member
    split at member
    · exact componentsOf_mem (by simpa using member)
    · exact componentsOf_mem member
  obtain ⟨chars, inside, rfl⟩ := List.mem_map.mp piece
  intro slash
  rw [String.toList_ofList] at slash
  simpa using splitBy_pieces inside '/' slash

theorem long_ne {n : String} (long : 2 < n.toList.length) : n ≠ "" ∧ n ≠ "." ∧ n ≠ ".." := by
  refine ⟨?_, ?_, ?_⟩ <;> rintro rfl <;> exact absurd long (by decide)

-- The name of a file with an ending is the last component.
theorem componentsOf_end {tail : String} (slashless : '/' ∉ tail.toList) (long : 2 < tail.toList.length)
    (text : String) (first : Bool) :
    ∃ parts last, componentsOf (split '/' (text ++ tail)) first = parts ++ [.name (last ++ tail)] := by
  have none : ∀ c ∈ tail.toList, (c == '/') = false := by
    intro c member
    have other : c ≠ '/' := by rintro rfl; exact slashless member
    simpa using other
  obtain ⟨pieces, last, whole⟩ := splitBy_end none text.toList
  have whole_long : 2 < (String.ofList last ++ tail).toList.length := by
    rw [String.toList_append, List.length_append]
    omega
  obtain ⟨filled, here, above⟩ := long_ne whole_long
  have named : ∀ start, componentsOf [String.ofList last ++ tail] start =
      [.name (String.ofList last ++ tail)] := by
    intro start
    simp only [componentsOf, beq_iff_eq, filled, here, above, if_false]
  refine ⟨componentsOf (pieces.map String.ofList) first, String.ofList last, ?_⟩
  have spelled : split '/' (text ++ tail) = pieces.map String.ofList ++ [String.ofList last ++ tail] := by
    rw [split, String.toList_append, whole]
    simp
  rw [spelled, componentsOf_append, named]

-- Text that names one thing directly in a directory.
def IsName (n : String) : Prop := n ≠ "" ∧ n ≠ "." ∧ n ≠ ".." ∧ '/' ∉ n.toList

instance (n : String) : Decidable (IsName n) :=
  inferInstanceAs (Decidable (n ≠ "" ∧ n ≠ "." ∧ n ≠ ".." ∧ '/' ∉ n.toList))

theorem componentsOf_name {n : String} (plain : IsName n) (start : Bool) :
    componentsOf (split '/' n) start = [.name n] := by
  obtain ⟨filled, here, above, slash⟩ := plain
  simp [split_whole slash, componentsOf, filled, here, above]

theorem IsName.relative {n : String} (plain : IsName n) : startsWith n "/" = false := by
  have slash := plain.2.2.2
  cases text : n.toList with
  | nil => simp [startsWith, text]
  | cons c rest =>
    have other : c ≠ '/' := by rintro rfl; simp [text] at slash
    simpa [startsWith, text, List.isPrefixOf] using other.symm

theorem components_join_name (dir : Path) {n : String} (plain : IsName n) :
    (dir.join n).components = dir.components ++ [.name n] := by
  rw [components_join dir plain.relative, componentsOf_name plain]

theorem join_name_inj {dir dir' : Path} {n n' : String} (plain : IsName n) (plain' : IsName n')
    (same : (dir.join n).components = (dir'.join n').components) :
    dir.components = dir'.components ∧ n = n' := by
  rw [components_join_name dir plain, components_join_name dir' plain'] at same
  obtain ⟨dirs, names⟩ := List.append_inj' same rfl
  simpa [dirs] using names

theorem same_congr {p q : Path} (same : p.same q = true) (r : Path) : r.same p = r.same q := by
  have parts : p.components = q.components := beq_iff_eq.mp same
  simp only [Path.same, parts]

theorem find?_same {paths : List Path} {p q : Path} (found : paths.find? (·.same p) = some q) :
    q.same p = true := by
  simpa using List.find?_some found

theorem find?_place {p q : Path} (place : p.same q = true) (paths : List Path) :
    paths.find? (·.same p) = paths.find? (·.same q) :=
  congrArg paths.find? (funext (same_congr place))

theorem join_text (dir : Path) {n : String} (plain : IsName n) :
    (dir.join n).text = (dir.join "").text ++ n := by
  have nowhere : startsWith "" "/" = false := by decide
  unfold join
  rw [plain.relative, nowhere, if_neg Bool.false_ne_true, if_neg Bool.false_ne_true]
  split <;> simp

-- Two spellings of a directory that differ in a separator at the end are one for the files in it.
theorem join_eq_join {d e : Path} {n : String} (plain : IsName n) :
    d.join n = e.join n ↔ d.join "" = e.join "" := by
  have texts : ∀ p q : Path, p = q ↔ p.text = q.text := fun p q => by
    cases p
    cases q
    simp
  rw [texts, texts, join_text d plain, join_text e plain]
  refine ⟨?_, fun same => by rw [same]⟩
  intro same
  have chars := congrArg String.toList same
  rw [String.toList_append, String.toList_append] at chars
  exact String.toList_inj.mp (List.append_cancel_right chars)

end CallAtlas.Path
