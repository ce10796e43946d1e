import CallAtlas.Proofs.Path.Join
import CallAtlas.Proofs.Text.Lower

namespace CallAtlas.Text

def segments (text : String) : List String := (split '/' text).filter (· != "")

theorem segments_filled {text : String} : ∀ n ∈ segments text, n ≠ "" := by
  intro n member
  simpa using (List.mem_filter.mp member).2

theorem segments_slashless {text : String} : ∀ n ∈ segments text, '/' ∉ n.toList := by
  intro n member
  obtain ⟨piece, inside, rfl⟩ := List.mem_map.mp (List.mem_filter.mp member).1
  rw [String.toList_ofList]
  intro slash
  simpa using splitBy_pieces inside '/' slash

theorem segments_slash (a b : String) : segments (a ++ "/" ++ b) = segments a ++ segments b := by
  unfold segments
  rw [Path.split_append_slash, List.filter_append]

theorem segments_empty : segments "" = [] := by decide

theorem segments_rooted (text : String) : segments ("/" ++ text) = segments text := by
  have whole := segments_slash "" text
  rwa [String.empty_append, segments_empty, List.nil_append] at whole

theorem segments_closed (text : String) : segments (text ++ "/") = segments text := by
  have whole := segments_slash text ""
  rwa [String.append_empty, segments_empty, List.append_nil] at whole

theorem segments_slashes (i j : Nat) (chars : List Char) :
    segments (String.ofList (List.replicate i '/' ++ chars ++ List.replicate j '/')) =
      segments (String.ofList chars) := by
  have closed : ∀ text : List Char, segments (String.ofList (text ++ List.replicate j '/')) =
      segments (String.ofList text) := by
    intro text
    induction j with
    | zero => simp
    | succ j ih =>
      rw [List.replicate_succ', ← List.append_assoc, String.ofList_append]
      exact (segments_closed _).trans ih
  rw [closed]
  induction i with
  | zero => simp
  | succ i ih =>
    have rooted : String.ofList (List.replicate (i + 1) '/' ++ chars) =
        "/" ++ String.ofList (List.replicate i '/' ++ chars) := by
      rw [← String.toList_inj]
      simp [List.replicate_succ]
    rw [rooted, segments_rooted, ih]

theorem segments_trimmed (text : String) : segments (trimMatches isSlash text) = segments text := by
  obtain ⟨i, j, whole, _⟩ := trimBy_split text.toList
  calc segments (trimMatches isSlash text)
      = segments (String.ofList (List.replicate i '/' ++ trimBy isSlash text.toList ++
          List.replicate j '/')) := (segments_slashes i j _).symm
    _ = segments text := by rw [← whole, String.ofList_toList]

theorem segments_name {n : String} (filled : n ≠ "") (slashless : '/' ∉ n.toList) : segments n = [n] := by
  simp [segments, split_whole slashless, filled]

theorem segments_join (parts : List String) : segments (join "/" parts) = parts.flatMap segments := by
  unfold join
  induction parts with
  | nil => exact segments_empty
  | cons part rest ih =>
    cases rest with
    | nil => rw [String.intercalate_singleton, List.flatMap_singleton]
    | cons next more => rw [String.intercalate_cons_cons, segments_slash, ih, List.flatMap_cons (x := part)]

-- Segments joined again have the same segments.
theorem segments_joined {names : List String} (filled : ∀ n ∈ names, n ≠ "")
    (slashless : ∀ n ∈ names, '/' ∉ n.toList) : segments (join "/" names) = names := by
  rw [segments_join]
  induction names with
  | nil => rfl
  | cons n rest ih =>
    obtain ⟨first, others⟩ := List.forall_mem_cons.mp filled
    obtain ⟨plain, further⟩ := List.forall_mem_cons.mp slashless
    rw [List.flatMap_cons, segments_name first plain, ih others further, List.singleton_append]

theorem split_join {names : List String} (plain : ∀ n ∈ names, '/' ∉ n.toList) (filled : names ≠ []) :
    split '/' (join "/" names) = names := by
  unfold join
  induction names with
  | nil => exact absurd rfl filled
  | cons n rest ih =>
    obtain ⟨first, others⟩ := List.forall_mem_cons.mp plain
    cases rest with
    | nil => rw [String.intercalate_singleton, split_whole first]
    | cons next more =>
      rw [String.intercalate_cons_cons, Path.split_append_slash, split_whole first,
        ih others (List.cons_ne_nil next more), List.singleton_append]

def Gapless (text : String) : Prop := contains text "//" = false

instance (text : String) : Decidable (Gapless text) := inferInstanceAs (Decidable (contains text "//" = false))

theorem gapless_iff {text : String} : Gapless text ↔ ¬ ['/', '/'] <:+: text.toList := by
  rw [Gapless, ← Bool.not_eq_true, contains, occursIn_iff]
  rfl

-- Between two slashes in a row there is a piece without characters, which is neither the first nor the last.
theorem splitBy_gap {text : List Char} (gap : ['/', '/'] <:+: text) :
    ∃ front back, front ≠ [] ∧ back ≠ [] ∧ splitBy (· == '/') text = front ++ [] :: back := by
  obtain ⟨a, b, rfl⟩ := gap
  refine ⟨splitBy (· == '/') a, splitBy (· == '/') b, splitBy_ne_nil a, splitBy_ne_nil b, ?_⟩
  rw [List.append_assoc, List.cons_append, splitBy_append (by rfl)]
  rfl

theorem splitBy_first {p : Char → Bool} {text : List Char} {more : List (List Char)}
    (pieces : splitBy p text = [] :: more) : text = [] ∨ ∃ c rest, p c = true ∧ text = c :: rest := by
  cases text with
  | nil => exact .inl rfl
  | cons c rest =>
    refine .inr ⟨c, rest, ?_, rfl⟩
    obtain ⟨first, others, further⟩ := List.exists_cons_of_ne_nil (splitBy_ne_nil (p := p) rest)
    rw [splitBy, further] at pieces
    by_contra other
    rw [if_neg other] at pieces
    cases pieces

-- A later piece without characters stands between two slashes in a row or behind the last one.
theorem splitBy_later {text : List Char} (empty : [] ∈ (splitBy (· == '/') text).tail) :
    text.getLast? = some '/' ∨ ['/', '/'] <:+: text := by
  induction text with
  | nil => cases empty
  | cons c rest ih =>
    have longer : rest.getLast? = some '/' ∨ ['/', '/'] <:+: rest →
        (c :: rest).getLast? = some '/' ∨ ['/', '/'] <:+: c :: rest := by
      rintro (last | gap)
      · exact .inl (by rw [List.getLast?_cons, last, Option.getD_some])
      · exact .inr (gap.trans (List.suffix_cons c rest).isInfix)
    obtain ⟨first, more, pieces⟩ := List.exists_cons_of_ne_nil (splitBy_ne_nil (p := (· == '/')) rest)
    rw [splitBy, pieces] at empty
    rw [pieces] at ih
    split at empty
    · rename_i slash
      cases beq_iff_eq.mp slash
      rcases List.mem_cons.mp empty with here | later
      · subst here
        rcases splitBy_first pieces with rfl | ⟨d, others, same, rfl⟩
        · exact .inl rfl
        · cases beq_iff_eq.mp same
          exact .inr ⟨[], others, rfl⟩
      · exact longer (ih later)
    · exact longer (ih empty)

theorem join_segments {text : String} (bare : Bare text.toList) (gapless : Gapless text) :
    join "/" (segments text) = text := by
  have filled : text ≠ "" → ∀ piece ∈ split '/' text, (piece != "") = true := by
    intro some piece member
    obtain ⟨chars, inside, rfl⟩ := List.mem_map.mp member
    rw [bne_iff_ne]
    intro empty
    rw [String.ofList_eq_empty_iff] at empty
    subst empty
    obtain ⟨first, more, pieces⟩ := List.exists_cons_of_ne_nil (splitBy_ne_nil (p := (· == '/')) text.toList)
    rw [pieces] at inside
    rcases List.mem_cons.mp inside with here | later
    · subst here
      rcases splitBy_first pieces with none | ⟨c, rest, slash, whole⟩
      · exact some (String.toList_eq_nil_iff.mp none)
      · have apart := bare.first c (by rw [whole]; rfl)
        cases apart.symm.trans slash
    · have last := splitBy_later (by rw [pieces]; exact later)
      rcases last with last | gap
      · cases (bare.last '/' last).symm.trans rfl
      · exact gapless_iff.mp gapless gap
  by_cases none : text = ""
  · subst none
    rw [segments_empty]
    rfl
  · rw [segments, List.filter_eq_self.mpr (filled none)]
    exact join_split rfl text

theorem trimMatches_within (text : String) : (trimMatches isSlash text).toList <:+: text.toList := by
  obtain ⟨i, j, whole, _⟩ := trimBy_split text.toList
  rw [trimMatches, String.toList_ofList]
  exact ⟨_, _, whole.symm⟩

theorem join_segments_trimmed {text : String} (gapless : Gapless text) :
    join "/" (segments text) = trimMatches isSlash text := by
  rw [← segments_trimmed]
  refine join_segments ?_ ?_
  · obtain ⟨_, _, _, bare⟩ := trimBy_split text.toList
    rwa [trimMatches, String.toList_ofList]
  · rw [gapless_iff] at gapless ⊢
    exact fun gap => gapless (gap.trans (trimMatches_within text))

-- Texts that are one text with slashes added at its ends.
def SameInside (a b : String) : Prop :=
  ∃ core i j k l, a.toList = List.replicate i '/' ++ core ++ List.replicate j '/' ∧
    b.toList = List.replicate k '/' ++ core ++ List.replicate l '/'

theorem trimBy_slashes (i j : Nat) (core : List Char) :
    trimBy isSlash (List.replicate i '/' ++ core ++ List.replicate j '/') = trimBy isSlash core := by
  obtain ⟨m, n, whole, bare⟩ := trimBy_split core
  have all : List.replicate i '/' ++ core ++ List.replicate j '/' =
      List.replicate (i + m) '/' ++ trimBy isSlash core ++ List.replicate (n + j) '/' := by
    rw [← List.replicate_append_replicate, ← List.replicate_append_replicate]
    conv_lhs => rw [whole]
    simp only [List.append_assoc]
  rw [all, trimBy_bare bare]

theorem SameInside.trimmed {a b : String} (same : SameInside a b) :
    trimMatches isSlash a = trimMatches isSlash b := by
  obtain ⟨core, i, j, k, l, first, second⟩ := same
  rw [trimMatches, trimMatches, first, second, trimBy_slashes, trimBy_slashes]

end CallAtlas.Text
