import CallAtlas.Proofs.Text.Calls
import CallAtlas.Text.Basic

namespace CallAtlas.Text

open Pattern

theorem takeWhile_inside {p : Char → Bool} {inside rest : List Char} (fits : inside.all p = true)
    (ends : rest.head?.any p = false) : (inside ++ rest).takeWhile p = inside := by
  rw [List.takeWhile_append_of_pos (List.all_eq_true.mp fits)]
  cases rest with
  | nil => simp
  | cons c rest => simp_all

theorem dropWhile_inside {p : Char → Bool} {inside rest : List Char} (fits : inside.all p = true)
    (ends : rest.head?.any p = false) : (inside ++ rest).dropWhile p = rest := by
  rw [List.dropWhile_append_of_pos (List.all_eq_true.mp fits)]
  cases rest with
  | nil => rfl
  | cons c rest => simp_all

theorem dropWhile_ends (p : Char → Bool) (text : List Char) : (text.dropWhile p).head?.any p = false := by
  cases found : (text.dropWhile p).head? with
  | none => rfl
  | some c =>
    have stopped := List.head?_dropWhile_not p text
    rw [found] at stopped
    exact stopped

-- A run of a class is all of the class up to what stops it.
theorem run_unique {p : Char → Bool} {inside inside' rest left : List Char} (fits : inside.all p = true)
    (fits' : inside'.all p = true) (stops : rest.head?.any p = false) (stops' : left.head?.any p = false)
    (same : inside ++ rest = inside' ++ left) : inside = inside' ∧ rest = left := by
  have spans := congrArg (List.takeWhile p) same
  rw [takeWhile_inside fits stops, takeWhile_inside fits' stops'] at spans
  subst spans
  exact ⟨rfl, List.append_cancel_left same⟩

theorem dropWhile_wider {p q : Char → Bool} (wider : ∀ c, q c = true → p c = true) (text : List Char) :
    (text.dropWhile q).dropWhile p = text.dropWhile p := by
  induction text with
  | nil => rfl
  | cons c text ih =>
    by_cases fits : q c = true
    · rw [List.dropWhile_cons_of_pos fits, List.dropWhile_cons_of_pos (wider c fits), ih]
    · rw [List.dropWhile_cons_of_neg fits]

def blanks : List Nat :=
  List.range' 9 5 ++ (List.range' 0x2000 11 ++ [32, 0x85, 0xA0, 0x1680, 0x2028, 0x2029, 0x202F, 0x205F, 0x3000])

theorem blank_unworded {c : Char} (blank : isBlank c = true) : isWord c = false := by
  have known : c.toNat ∈ blanks := by
    simp only [isBlank, Bool.or_eq_true, Bool.and_eq_true, decide_eq_true_eq, beq_iff_eq] at blank
    simp only [blanks, List.mem_append, List.mem_range'_1, List.mem_cons, List.not_mem_nil, or_false]
    omega
  have unworded : ∀ n ∈ blanks, isWord (Char.ofNat n) = false := by decide +kernel
  rw [← Char.ofNat_toNat c]
  exact unworded _ known

theorem gap_unworded {gap rest : List Char} {c : Char} (blank : gap.all isBlank = true) (other : isWord c = false) :
    (gap ++ c :: rest).head?.any isWord = false := by
  cases gap with
  | nil => exact other
  | cons d gap => exact blank_unworded (List.all_eq_true.mp blank d List.mem_cons_self)

theorem length_span (p : Char → Bool) (text : List Char) :
    text.length - (text.dropWhile p).length = (text.takeWhile p).length := by
  have sizes := congrArg List.length (List.takeWhile_append_dropWhile (p := p) (l := text))
  rw [List.length_append] at sizes
  omega

theorem take_front (front back : List Char) : (front ++ back).take ((front ++ back).length - back.length) = front := by
  simp

-- What a group of one repetition keeps.
theorem take_span (p : Char → Bool) (text : List Char) :
    text.take (text.length - (text.dropWhile p).length) = text.takeWhile p := by
  rw [length_span]
  exact (List.prefix_iff_eq_take.mp (List.takeWhile_prefix p)).symm

theorem passText_eq (w rest : List Char) (before : Option Char) :
    passText w before rest = (after? w rest).map (w.getLast?.or before, ·) := by
  induction w generalizing before rest with
  | nil => rfl
  | cons x w ih =>
    cases rest with
    | nil => rfl
    | cons c rest =>
      rw [passText, after?]
      split
      · rename_i same
        rw [ih, getLast?_cons_or, same]
      · rfl

theorem after?_append (w rest : List Char) : after? w (w ++ rest) = some rest := by
  induction w with
  | nil => rfl
  | cons c w ih => simpa [after?] using ih

theorem after?_exact {w text rest : List Char} : after? w text = some rest ↔ text = w ++ rest := by
  constructor
  · intro found
    have passed := passText_eq w text none
    rw [found] at passed
    exact (passText_exact passed).1
  · rintro rfl
    exact after?_append w rest

theorem stripStart?_exact {text lead rest : String} : stripStart? text lead = some rest ↔ text = lead ++ rest := by
  rw [stripStart?, Option.map_eq_some_iff]
  simp only [after?_exact]
  constructor
  · rintro ⟨left, whole, rfl⟩
    rw [← String.toList_inj, whole, String.toList_append, String.toList_ofList]
  · rintro rfl
    exact ⟨rest.toList, String.toList_append, String.ofList_toList⟩

theorem run_text {w : String} {left : List Char} {steps : List Step} {s : State}
    (here : s.rest = w.toList ++ left) :
    run (word w :: steps) s = run steps { s with before := w.toList.getLast?.or s.before, rest := left } := by
  rw [word, run, here, passText_append]

theorem run_text_stuck {w : String} {steps : List Step} {s : State} (other : ¬ w.toList <+: s.rest) :
    run (word w :: steps) s = none := by
  rw [word, run, passText_eq]
  cases passed : after? w.toList s.rest with
  | none => rfl
  | some left => exact absurd ⟨left, (after?_exact.mp passed).symm⟩ other

theorem manyThen_whole {p : Char → Bool} {next : Option Char → List Char → Option State}
    {before : Option Char} (rest : List Char)
    (whole : (next ((rest.takeWhile p).getLast?.or before) (rest.dropWhile p)).isSome = true ∨
      ∀ last c left, p c = true → next last (c :: left) = none) :
    manyThen p next before rest = next ((rest.takeWhile p).getLast?.or before) (rest.dropWhile p) := by
  induction rest generalizing before with
  | nil => rfl
  | cons c rest ih =>
    rw [manyThen]
    by_cases fits : p c = true
    · rw [List.takeWhile_cons_of_pos fits, List.dropWhile_cons_of_pos fits, getLast?_cons_or] at whole ⊢
      rw [if_pos fits, ih whole]
      cases further : next ((rest.takeWhile p).getLast?.or (some c)) (rest.dropWhile p) with
      | some t => rfl
      | none =>
        rw [further] at whole
        have stuck := whole.resolve_left (by simp)
        exact stuck before c rest fits
    · rw [if_neg fits, List.takeWhile_cons_of_neg fits, List.dropWhile_cons_of_neg fits]
      rfl

-- A word in a group, when no character of a word comes after it.
theorem run_group {p : Char → Bool} {steps : List Step} {s : State}
    (whole : (run steps { s with
        before := (s.rest.takeWhile p).getLast?.or s.before
        rest := s.rest.dropWhile p
        openAt := s.rest
        groups := s.rest.takeWhile p :: s.groups }).isSome = true ∨
      ∀ t : State, t.rest.head?.any p = true → run steps t = none) :
    run (.opens :: .many p :: .closes :: steps) s =
      run steps { s with
        before := (s.rest.takeWhile p).getLast?.or s.before
        rest := s.rest.dropWhile p
        openAt := s.rest
        groups := s.rest.takeWhile p :: s.groups } := by
  have spanned := take_span p s.rest
  simp only [run]
  rw [manyThen_whole]
  · simp only [spanned]
  · simp only [spanned]
    refine whole.imp id ?_
    intro stuck last c left fits
    exact stuck _ (by simpa using fits)

end CallAtlas.Text
