import CallAtlas.Proofs.Path.Join
import CallAtlas.Proofs.Text.Spans
import Mathlib.Data.List.TakeWhile

namespace CallAtlas.Text

-- Words end at a blank or with the text.
inductive Words : List Char → List (List Char) → Prop where
  | nil : Words [] []
  | blank {c : Char} {rest : List Char} {words : List (List Char)} :
      isBlank c = true → Words rest words → Words (c :: rest) words
  | word {w rest : List Char} {words : List (List Char)} :
      w ≠ [] → (∀ c ∈ w, isBlank c = false) → rest.head?.all isBlank = true → Words rest words →
      Words (w ++ rest) (w :: words)

theorem fieldsOf_blank {c : Char} (blank : isBlank c = true) (rest : List Char) :
    fieldsOf (c :: rest) = fieldsOf rest := by
  rw [fieldsOf, splitBy, if_pos blank]
  rfl

theorem fieldsOf_word {w rest : List Char} (filled : w ≠ []) (solid : ∀ c ∈ w, isBlank c = false)
    (ends : rest.head?.all isBlank = true) : fieldsOf (w ++ rest) = w :: fieldsOf rest := by
  have kept : [w].filter (!·.isEmpty) = [w] := by simp [filled]
  cases rest with
  | nil => rw [List.append_nil, fieldsOf, splitBy_whole solid, kept]; rfl
  | cons c rest =>
    have blank : isBlank c = true := ends
    rw [fieldsOf_blank blank, fieldsOf, splitBy_append blank, List.filter_append, splitBy_whole solid, kept]
    rfl

theorem words_fieldsOf (text : List Char) : Words text (fieldsOf text) := by
  induction size : text.length using Nat.strongRecOn generalizing text with
  | ind n ih =>
    cases text with
    | nil => exact .nil
    | cons c rest =>
      subst size
      cases blank : isBlank c with
      | true =>
        rw [fieldsOf_blank blank]
        exact .blank blank (ih _ (Nat.lt_succ_self _) rest rfl)
      | false =>
        have whole := List.takeWhile_append_dropWhile (p := fun c => !isBlank c) (l := c :: rest)
        have filled : (c :: rest).takeWhile (fun c => !isBlank c) ≠ [] := by simp [blank]
        have solid : ∀ d ∈ (c :: rest).takeWhile (fun c => !isBlank c), isBlank d = false := by
          intro d member
          simpa using List.mem_takeWhile_imp member
        have ends : ((c :: rest).dropWhile fun c => !isBlank c).head?.all isBlank = true := by
          have stopped := dropWhile_ends (fun c => !isBlank c) (c :: rest)
          revert stopped
          cases ((c :: rest).dropWhile fun c => !isBlank c).head? <;> simp
        have shorter : ((c :: rest).dropWhile fun c => !isBlank c).length < (c :: rest).length := by
          have sizes := congrArg List.length whole
          have positive := List.length_pos_iff.mpr filled
          rw [List.length_append] at sizes
          omega
        rw [← whole, fieldsOf_word filled solid ends]
        exact .word filled solid ends (ih _ shorter _ rfl)

theorem words_iff {text : List Char} {words : List (List Char)} : fieldsOf text = words ↔ Words text words := by
  constructor
  · rintro rfl
    exact words_fieldsOf text
  · intro parts
    induction parts with
    | nil => rfl
    | blank blank _ ih => rw [fieldsOf_blank blank, ih]
    | word filled solid ends _ ih => rw [fieldsOf_word filled solid ends, ih]

theorem fieldsOf_dropWhile (text : List Char) : fieldsOf (text.dropWhile isBlank) = fieldsOf text := by
  induction text with
  | nil => rfl
  | cons c rest ih =>
    rw [List.dropWhile_cons]
    split
    · rename_i blank
      rw [ih, fieldsOf_blank blank]
    · rfl

theorem dropReturn_mem {line : List Char} {c : Char} (member : c ∈ dropReturn line) : c ∈ line := by
  fun_induction dropReturn line with
  | case1 => cases member
  | case2 => cases member
  | case3 => exact member
  | case4 d rest _ ih =>
    rcases List.mem_cons.mp member with rfl | later
    · exact List.mem_cons_self
    · exact List.mem_cons_of_mem _ (ih later)

theorem lines_whole {source line : String} (member : line ∈ lines source) : '\n' ∉ line.toList := by
  have pieces : ∀ piece ∈ splitBy (· == '\n') source.toList, '\n' ∉ piece := fun piece inside unbroken =>
    absurd (splitBy_pieces inside _ unbroken) (by decide)
  obtain ⟨chars, inside, rfl⟩ := List.mem_map.mp member
  rw [String.toList_ofList]
  have cut : ∀ piece ∈ (splitBy (· == '\n') source.toList).dropLast.map dropReturn, '\n' ∉ piece := by
    intro piece cut unbroken
    obtain ⟨whole, early, rfl⟩ := List.mem_map.mp cut
    exact pieces whole (List.dropLast_subset _ early) (dropReturn_mem unbroken)
  unfold linesOf at inside
  dsimp only at inside
  split at inside
  · exact cut chars inside
  · rename_i final _ last
    rcases List.mem_append.mp inside with early | late
    · exact cut chars early
    · rw [List.mem_singleton.mp late]
      exact pieces final (List.mem_of_getLast? last)
  · cases inside

theorem dropReturn_bare {line : List Char} (bare : '\r' ∉ line) : dropReturn line = line := by
  fun_induction dropReturn line with
  | case1 => rfl
  | case2 => exact absurd List.mem_cons_self bare
  | case3 => rfl
  | case4 c rest _ ih => rw [ih fun later => bare (List.mem_cons_of_mem c later)]

-- A last line feed opens no further line.
theorem linesOf_bare {text : List Char} (bare : '\r' ∉ text) :
    splitBy (· == '\n') text = linesOf text ∨ splitBy (· == '\n') text = linesOf text ++ [[]] := by
  have plain : ∀ piece ∈ splitBy (· == '\n') text, dropReturn piece = piece := fun piece member =>
    dropReturn_bare fun inside => bare (splitBy_subset member inside)
  have early : (splitBy (· == '\n') text).dropLast.map dropReturn = (splitBy (· == '\n') text).dropLast := by
    rw [List.map_congr_left fun piece member => plain piece (List.dropLast_subset _ member), List.map_id']
  unfold linesOf
  dsimp only
  rw [early]
  split
  · rename_i last
    obtain ⟨front, whole⟩ := List.getLast?_eq_some_iff.mp last
    right
    rw [whole, List.dropLast_concat]
  · rename_i final _ last
    obtain ⟨front, whole⟩ := List.getLast?_eq_some_iff.mp last
    left
    rw [whole, List.dropLast_concat]
  · rename_i none
    exact absurd (List.getLast?_eq_none_iff.mp none) (splitBy_ne_nil text)

theorem join_lines {text : String} (bare : '\r' ∉ text.toList) :
    join "\n" (lines text) ++ "\n" = text ++ "\n" ∨ join "\n" (lines text) ++ "\n" = text := by
  have whole : join "\n" (split '\n' text) = text := join_split rfl text
  rw [split] at whole
  rw [lines]
  rcases linesOf_bare bare with same | feed
  · left
    rw [← same, whole]
  rw [feed, List.map_append] at whole
  cases first : linesOf text.toList with
  | nil =>
    left
    rw [← whole, first]
    rfl
  | cons line more =>
    right
    rw [join, String.intercalate_append_of_ne_nil (by simp [first]) (by simp), List.map_singleton,
      String.intercalate_singleton, first] at whole
    rw [join, ← String.append_empty (s := _ ++ "\n")]
    exact whole

end CallAtlas.Text
