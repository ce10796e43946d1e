import CallAtlas.Proofs.Go.Spelling
import Mathlib.Data.List.Find

namespace CallAtlas.Go.Lexeme

open CallAtlas.Text

variable {text tail : List Char} {n : Nat}

theorem takeWhile_line {p : Char → Bool} (ends : p '\n' = false) (text tail : List Char) :
    (text ++ '\n' :: tail).takeWhile p = text.takeWhile p := by
  induction text with
  | nil => simp [ends]
  | cons c rest ih =>
    rw [List.cons_append, List.takeWhile_cons, List.takeWhile_cons, ih]

theorem takeWhile_within (p : Char → Bool) (text : List Char) : (text.takeWhile p).length ≤ text.length :=
  (List.takeWhile_prefix p).length_le

theorem allHex_length {digits : Nat} (hex : allHex digits text = true) : digits ≤ text.length := by
  rw [allHex, Bool.and_eq_true, beq_iff_eq, List.length_take] at hex
  omega

theorem allHex_append {digits : Nat} (hex : allHex digits text = true) (tail : List Char) :
    allHex digits (text ++ tail) = true := by
  rw [allHex, List.take_append_of_le_length (allHex_length hex)]
  exact hex

theorem escape_append {c letter : Char} {digits : Nat} {rest : List Char}
    (whole : ¬ (c == letter && !allHex digits rest) = true) (tail : List Char) :
    ¬ (c == letter && !allHex digits (rest ++ tail)) = true := by
  rw [Bool.and_eq_true, Bool.not_eq_true'] at whole ⊢
  rintro ⟨same, short⟩
  refine whole ⟨same, ?_⟩
  cases hex : allHex digits rest with
  | false => rfl
  | true => rw [allHex_append hex] at short; cases short

theorem interpretedSize_append (size : interpretedSize text = some n) (tail : List Char) :
    interpretedSize (text ++ tail) = some n ∧ n ≤ text.length := by
  fun_induction interpretedSize text generalizing n with
  | case1 => cases size
  | case2 =>
    cases size
    exact ⟨rfl, by simp⟩
  | case3 => cases size
  | case4 => cases size
  | case5 => cases size
  | case6 => cases size
  | case7 c rest x u U ih =>
    obtain ⟨m, further, rfl⟩ := Option.map_eq_some_iff.mp size
    obtain ⟨same, within⟩ := ih further
    refine ⟨?_, by simpa using within⟩
    rw [List.cons_append, List.cons_append, interpretedSize, if_neg (escape_append x tail), if_neg (escape_append u tail),
      if_neg (escape_append U tail), same]
    rfl
  | case8 => cases size
  | case9 c rest quote feed escaped final ih =>
    obtain ⟨m, further, rfl⟩ := Option.map_eq_some_iff.mp size
    obtain ⟨same, within⟩ := ih further
    have plain : c ≠ '\\' := by
      intro slash
      cases rest with
      | nil => exact final slash rfl
      | cons d rest => exact escaped d rest slash rfl
    refine ⟨?_, by simpa using within⟩
    rw [List.cons_append, interpretedSize, same]
    · rfl
    · exact quote
    · exact feed
    · exact fun _ _ slash _ => plain slash
    · exact fun slash _ => plain slash

theorem rawSize_append (size : rawSize text = some n) (tail : List Char) :
    rawSize (text ++ tail) = some n ∧ n ≤ text.length := by
  induction text generalizing n with
  | nil => cases size
  | cons c rest ih =>
    rw [rawSize] at size
    rw [List.cons_append, rawSize]
    split at size
    · rename_i quote
      cases size
      exact ⟨if_pos quote, by simp⟩
    · rename_i other
      obtain ⟨m, further, rfl⟩ := Option.map_eq_some_iff.mp size
      obtain ⟨same, within⟩ := ih further
      exact ⟨by rw [if_neg other, same]; rfl, by simpa using within⟩

theorem blockSize_append (size : blockSize text = some n) (tail : List Char) :
    blockSize (text ++ tail) = some n ∧ n ≤ text.length := by
  fun_induction blockSize text generalizing n with
  | case1 => cases size
  | case2 =>
    cases size
    exact ⟨rfl, by simp⟩
  | case3 c rest other ih =>
    obtain ⟨m, further, rfl⟩ := Option.map_eq_some_iff.mp size
    obtain ⟨same, within⟩ := ih further
    refine ⟨?_, by simpa using within⟩
    rw [List.cons_append, blockSize, same]
    · rfl
    · intro _ star slash
      cases rest with
      | nil => cases further
      | cons d rest =>
        rw [List.cons_append, List.cons.injEq] at slash
        exact other rest star (by rw [slash.1])

theorem blockSize_none : blockSize text = none ↔ occursIn "*/".toList text = false := by
  rw [← Bool.not_eq_true, occursIn_iff]
  fun_induction blockSize text with
  | case1 => simp
  | case2 rest =>
    refine iff_of_false nofun fun without => without ?_
    exact (List.prefix_append ['*', '/'] rest).isInfix
  | case3 c rest other ih =>
    rw [Option.map_eq_none_iff, ih, List.infix_cons_iff, not_or]
    refine (and_iff_right ?_).symm
    rintro ⟨more, begins⟩
    cases begins
    exact other more rfl rfl

-- A comment that is not closed in a text is not closed by lines that close none.
theorem blockSize_line (open_ : blockSize text = none) (without : occursIn "*/".toList tail = false) :
    blockSize (text ++ '\n' :: tail) = none := by
  have behind : blockSize ('\n' :: tail) = none := by
    rw [blockSize, blockSize_none.mpr without]
    · rfl
    · nofun
  fun_induction blockSize text with
  | case1 => exact behind
  | case2 => cases open_
  | case3 c rest other ih =>
    rw [List.cons_append, blockSize, ih (Option.map_eq_none_iff.mp open_)]
    · rfl
    · intro _ star slash
      cases rest with
      | nil => cases slash
      | cons d rest =>
        rw [List.cons_append, List.cons.injEq] at slash
        exact other rest star (by rw [slash.1])

theorem runeEscape_append {rest : List Char} (ends : runeEscape text = some rest) (tail : List Char) :
    runeEscape (text ++ tail) = some (rest ++ tail) := by
  cases text with
  | nil => cases ends
  | cons c text =>
    have hexed {digits : Nat} (ends : (if allHex digits text then some (text.drop digits) else none) = some rest) :
        (if allHex digits (text ++ tail) then some ((text ++ tail).drop digits) else none) = some (rest ++ tail) := by
      split at ends
      · rename_i hex
        cases ends
        rw [if_pos (allHex_append hex tail), List.drop_append_of_le_length (allHex_length hex)]
      · cases ends
    rw [runeEscape] at ends
    rw [List.cons_append, runeEscape]
    by_cases x : (c == 'x') = true
    · rw [if_pos x] at ends ⊢
      exact hexed ends
    by_cases u : (c == 'u') = true
    · rw [if_neg x, if_pos u] at ends ⊢
      exact hexed ends
    by_cases U : (c == 'U') = true
    · rw [if_neg x, if_neg u, if_pos U] at ends ⊢
      exact hexed ends
    rw [if_neg x, if_neg u, if_neg U] at ends ⊢
    by_cases octal : isOctal c = true
    · rw [if_pos octal] at ends ⊢
      split at ends
      · rename_i both
        have enough : 2 ≤ text.length := by
          rw [Bool.and_eq_true, beq_iff_eq, List.length_take] at both
          omega
        cases ends
        rw [List.take_append_of_le_length enough, if_pos both, List.drop_append_of_le_length enough]
      · cases ends
    · rw [if_neg octal] at ends ⊢
      split at ends
      · rename_i named
        cases ends
        rw [if_pos named]
      · cases ends

theorem runeEnd_append {rest : List Char} (ends : runeEnd text = some rest) (tail : List Char) :
    runeEnd (text ++ tail) = some (rest ++ tail) := by
  cases text with
  | nil => cases ends
  | cons c text =>
    have body : (if c == '\\' then runeEscape text else if c == '\'' then none else some text) =
        some ('\'' :: rest) := by
      dsimp only [runeEnd] at ends
      generalize (if c == '\\' then runeEscape text else if c == '\'' then none else some text) = body at ends ⊢
      split at ends
      · split at ends
        · rename_i quote
          cases ends
          rw [eq_of_beq quote]
        · cases ends
      · cases ends
    rw [List.cons_append, runeEnd]
    by_cases escaped : (c == '\\') = true
    · rw [if_pos escaped] at body
      rw [if_pos escaped, runeEscape_append body tail]
      rfl
    · rw [if_neg escaped] at body
      rw [if_neg escaped]
      split at body
      · cases body
      · rename_i other
        cases body
        rw [if_neg other]
        rfl

theorem runeSize_append (size : runeSize text = some n) (tail : List Char) :
    runeSize (text ++ tail) = some n ∧ n ≤ text.length := by
  obtain ⟨rest, ends, rfl⟩ := Option.map_eq_some_iff.mp size
  have further := runeEnd_append ends (tail.take (longestRune - text.length))
  rw [← List.take_append] at further
  constructor
  · rw [runeSize, further, Option.map_some, List.take_append, List.length_append, List.length_append, Nat.add_sub_add_right]
  · exact Nat.le_trans (Nat.sub_le _ _) (List.length_take_le' _ _)

theorem number_line (c : Char) (rest tail : List Char) : number (c :: (rest ++ '\n' :: tail)) = number (c :: rest) := by
  have same := takeWhile_line (p := isNumeric) (by decide) (c :: rest) tail
  rw [List.cons_append] at same
  rw [number, number, same]

theorem longer_within {size : Nat} (ends : List (TokenKind × List Char)) (best : Option (TokenKind × Nat))
    (old : ∀ b ∈ best, b.2 ≤ size) : ∀ b ∈ ends.foldl (longer size) best, b.2 ≤ size := by
  induction ends generalizing best with
  | nil => exact old
  | cons e rest ih =>
    refine ih _ fun b member => ?_
    have here : size - e.2.length ≤ size := Nat.sub_le _ _
    cases best with
    | none => cases member; exact here
    | some previous =>
      simp only [longer] at member
      split at member
      · cases member; exact here
      · exact old b member

theorem number_within {kind : TokenKind} (found : number text = some (kind, n)) : n ≤ text.length := by
  have within : n ≤ (text.takeWhile isNumeric).length := longer_within _ none nofun (kind, n) found
  exact Nat.le_trans within (takeWhile_within isNumeric text)

theorem isPrefixOf_line {mark : List Char} (inLine : '\n' ∉ mark) (text tail : List Char) :
    mark.isPrefixOf (text ++ '\n' :: tail) = mark.isPrefixOf text := by
  induction mark generalizing text with
  | nil => rfl
  | cons c mark ih =>
    have other : c ≠ '\n' := fun same => inLine (same ▸ List.mem_cons_self)
    cases text with
    | nil => simp [List.isPrefixOf, other]
    | cons d text =>
      rw [List.cons_append, List.isPrefixOf, List.isPrefixOf, ih fun member => inLine (List.mem_cons_of_mem _ member)]

theorem marks_inLine : ∀ m ∈ marks, '\n' ∉ m.toList := by decide

theorem markSize_line (text tail : List Char) : markSize (text ++ '\n' :: tail) = markSize text := by
  have same : marks.find? (fun m => m.toList.isPrefixOf (text ++ '\n' :: tail)) = marks.find? fun m => m.toList.isPrefixOf text :=
    List.find?_congr fun m member => isPrefixOf_line (marks_inLine m member) text tail
  rw [markSize, markSize, same]

theorem markSize_within (size : markSize text = some n) : n ≤ text.length := by
  obtain ⟨m, found, rfl⟩ := Option.map_eq_some_iff.mp size
  have starts : m.toList.isPrefixOf text = true := by simpa using List.find?_some found
  exact (List.isPrefixOf_iff_prefix.mp starts).length_le

theorem head_line {d : Char} (other : d ≠ '\n') (text tail : List Char) :
    ((text ++ '\n' :: tail).head? == some d) = (text.head? == some d) := by
  cases text with
  | nil => simp [Ne.symm other]
  | cons c rest => rfl

-- What ends within a text ends there whatever follows it.
theorem sized_line {measure : List Char → Option Nat} {text tail : List Char} {kind : TokenKind} {found : Found}
    (further : ∀ n, measure text = some n → measure (text ++ '\n' :: tail) = some n)
    (plain : ∀ n, found ≠ .token .stray n) (sized : tokenOrStray kind ((measure text).map (· + 1)) = found) :
    tokenOrStray kind ((measure (text ++ '\n' :: tail)).map (· + 1)) = found := by
  cases size : measure text with
  | none =>
    rw [size] at sized
    exact absurd sized.symm (plain 1)
  | some n =>
    rw [further n size, ← size]
    exact sized

-- A comment begins here and is not closed.
def Opens (c : Char) (rest : List Char) : Prop := c = '/' ∧ rest.head? = some '*' ∧ blockSize (rest.drop 1) = none

theorem find_line {c : Char} {rest : List Char} (plain : ∀ n, find c rest ≠ .token .stray n)
    (closed : Opens c rest → occursIn "*/".toList tail = false) : find c (rest ++ '\n' :: tail) = find c rest := by
  generalize found : find c rest = f at plain
  unfold find at found ⊢
  dsimp only at found ⊢
  rw [head_line (by decide), head_line (by decide)]
  split at found
  · rename_i feed
    rw [if_pos feed]
    exact found
  rename_i feed
  rw [if_neg feed]
  split at found
  · rename_i space
    rw [if_pos space]
    exact found
  rename_i space
  rw [if_neg space]
  split at found
  · rename_i line
    rw [if_pos line, takeWhile_line (by decide)]
    exact found
  rename_i line
  rw [if_neg line]
  split at found
  · rename_i block
    rw [if_pos block]
    rw [Bool.and_eq_true, beq_iff_eq, beq_iff_eq] at block
    have nonempty : 1 ≤ rest.length := by
      cases rest with
      | nil => cases block.2
      | cons d rest => exact Nat.succ_pos _
    rw [List.drop_append_of_le_length nonempty]
    cases size : blockSize (rest.drop 1) with
    | none =>
      rw [size] at found
      rw [blockSize_line size (closed ⟨block.1, block.2, size⟩), ← List.cons_append, markSize_line]
      exact found
    | some n =>
      rw [size] at found
      rw [(blockSize_append size _).1]
      exact found
  rename_i block
  rw [if_neg block]
  split at found
  · rename_i start
    rw [if_pos start, takeWhile_line (by decide)]
    exact found
  rename_i start
  rw [if_neg start]
  split at found
  · rename_i quote
    rw [if_pos quote]
    exact sized_line (fun _ size => (interpretedSize_append size _).1) plain found
  rename_i quote
  rw [if_neg quote]
  split at found
  · rename_i quote
    rw [if_pos quote]
    exact sized_line (fun _ size => (rawSize_append size _).1) plain found
  rename_i raw
  rw [if_neg raw]
  split at found
  · rename_i quote
    rw [if_pos quote]
    exact sized_line (fun _ size => (runeSize_append size _).1) plain found
  rename_i rune
  rw [if_neg rune, number_line]
  split at found
  · exact found
  · rw [← List.cons_append, markSize_line]
    exact found

theorem tokenOrStray_no_comment {kind : TokenKind} {size : Option Nat} : tokenOrStray kind size ≠ .comment n := by
  cases size <;> nofun

theorem comment_within {c : Char} {rest : List Char} {size : Nat} (found : find c rest = .comment size) :
    size ≤ rest.length + 1 := by
  unfold find at found
  dsimp only at found
  split at found
  · cases found
  split at found
  · cases found
  split at found
  · cases found
    exact Nat.succ_le_succ (takeWhile_within _ _)
  split at found
  · rename_i block
    rw [Bool.and_eq_true, beq_iff_eq, beq_iff_eq] at block
    split at found
    · rename_i n size
      cases found
      cases rest with
      | nil => cases block.2
      | cons d rest => exact Nat.succ_le_succ (Nat.succ_le_succ (blockSize_append size []).2)
    · exact absurd found tokenOrStray_no_comment
  split at found
  · cases found
  split at found
  · exact absurd found tokenOrStray_no_comment
  split at found
  · exact absurd found tokenOrStray_no_comment
  split at found
  · exact absurd found tokenOrStray_no_comment
  split at found
  · cases found
  · exact absurd found tokenOrStray_no_comment

theorem token_within {c : Char} {rest : List Char} {kind : TokenKind} {size : Nat}
    (found : find c rest = .token kind size) (plain : kind ≠ .stray) : size ≤ rest.length + 1 := by
  cases find_begins found with
  | word => exact Nat.succ_le_succ (takeWhile_within _ _)
  | interpreted _ size => exact Nat.succ_le_succ (interpretedSize_append size []).2
  | raw _ size => exact Nat.succ_le_succ (rawSize_append size []).2
  | rune _ size => exact Nat.succ_le_succ (runeSize_append size []).2
  | number size => exact number_within size
  | mark size => exact markSize_within size
  | stray => exact absurd rfl plain

theorem kind_ne_eof {c : Char} {rest : List Char} {kind : TokenKind} {size : Nat}
    (found : find c rest = .token kind size) : kind ≠ .eof := by
  rintro rfl
  cases find_begins found with
  | number size => exact absurd (number_kind size) (by decide)

-- The asterisk of a comment that is not closed is a mark like the character before it.
theorem find_opens {c : Char} {rest : List Char} (opens : Opens c rest) : find c rest = .token .mark 1 := by
  obtain ⟨rfl, star, unclosed⟩ := opens
  cases rest with
  | nil => cases star
  | cons d rest =>
    cases star
    have size : markSize ('/' :: '*' :: rest) = some 1 := by
      simp [markSize, marks, List.isPrefixOf]
      rfl
    have unclosed : blockSize rest = none := unclosed
    simp [find, isSpace, unclosed, size, tokenOrStray]

theorem find_star (rest : List Char) : ∃ kind size, find '*' rest = .token kind (size + 1) := by
  have none : number ('*' :: rest) = none := by
    have empty : ('*' :: rest).takeWhile isNumeric = [] := by simp [isNumeric]
    rw [number, empty]
    rfl
  have size : ∃ n, markSize ('*' :: rest) = some (n + 1) := by
    have long : ∀ m ∈ marks, 0 < m.length := by decide
    cases found : marks.find? fun m => m.toList.isPrefixOf ('*' :: rest) with
    | none => exact absurd rfl (List.find?_eq_none.mp found "*" (by decide))
    | some m =>
      obtain ⟨n, length⟩ := Nat.exists_eq_succ_of_ne_zero (Nat.ne_of_gt (long m (List.mem_of_find?_eq_some found)))
      exact ⟨n, by rw [markSize, found, Option.map_some, length]⟩
  obtain ⟨n, size⟩ := size
  refine ⟨.mark, n, ?_⟩
  have start : isIdentStart '*' = false := by decide
  simp [find, isSpace, start, none, size, tokenOrStray]

-- A byte order mark begins no token.
theorem find_marked {c : Char} (mark : c.toNat = 0xFEFF) (rest : List Char) : find c rest = .token .stray 1 := by
  have same : c = Char.ofNat 0xFEFF := by rw [← mark, Char.ofNat_toNat]
  subst same
  have start : isIdentStart (Char.ofNat 0xFEFF) = false := by decide +kernel
  have none : number (Char.ofNat 0xFEFF :: rest) = none := by
    have empty : (Char.ofNat 0xFEFF :: rest).takeWhile isNumeric = [] := List.takeWhile_cons_of_neg (by decide)
    rw [number, empty]
    rfl
  have size : markSize (Char.ofNat 0xFEFF :: rest) = Option.none := by
    have heads : ∀ m ∈ marks, m.toList.head?.any (· != Char.ofNat 0xFEFF) = true := by decide
    rw [markSize, List.find?_eq_none.mpr fun m member => ?_, Option.map_none]
    have head := heads m member
    cases chars : m.toList with
    | nil => rw [chars] at head; cases head
    | cons d more =>
      rw [chars] at head
      have other : d ≠ Char.ofNat 0xFEFF := by simpa using head
      simp [List.isPrefixOf, other]
  simp [find, isSpace, start, none, size, tokenOrStray]

end CallAtlas.Go.Lexeme
