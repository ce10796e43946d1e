import CallAtlas.Proofs.Go.Lexemes
import CallAtlas.Proofs.Go.Shifts

namespace CallAtlas.Go

open CallAtlas.Text

section Steps

variable {c : Char} {rest : List Char} {kind : TokenKind} {size : Nat}

theorem Lexeme.found_plain (found : Lexeme.find c rest = .token kind size) (word : kind = .word) :
    (String.ofList ((c :: rest).take size)).toList.all isNamePart = true := by
  rw [String.toList_ofList]
  exact Lexeme.plain_of_find found word

def Token.ofFound (found : Lexeme.find c rest = .token kind size) (p : Place) : Token :=
  ⟨kind, String.ofList ((c :: rest).take size), p.at_, p.at_ + byteLength ((c :: rest).take size), p.line, p.newline,
    p.comments, Lexeme.found_plain found⟩

theorem tokensFrom_blank (found : Lexeme.find c rest = .blank) (p : Place) :
    tokensFrom 0 p (c :: rest) = tokensFrom 0 (p.pass c) rest := by
  rw [tokensFrom]
  split <;> simp_all

theorem tokensFrom_newline (found : Lexeme.find c rest = .newline) (p : Place) :
    tokensFrom 0 p (c :: rest) = tokensFrom 0 { p.pass c with newline := true } rest := by
  rw [tokensFrom]
  split <;> simp_all

theorem tokensFrom_comment (found : Lexeme.find c rest = .comment size) (p : Place) :
    tokensFrom 0 p (c :: rest) = tokensFrom (((c :: rest).take size).length - 1)
      { p.pass c with comments := p.comments ++ [String.ofList ((c :: rest).take size)] } rest := by
  rw [tokensFrom]
  split <;> simp_all

theorem tokensFrom_token (found : Lexeme.find c rest = .token kind size) (p : Place) :
    tokensFrom 0 p (c :: rest) = Token.ofFound found p :: tokensFrom (((c :: rest).take size).length - 1)
      { p.pass c with newline := false, comments := [] } rest := by
  rw [tokensFrom]
  split
  · simp_all
  · simp_all
  · simp_all
  · rename_i found'
    cases found.symm.trans found'
    rfl

end Steps

section Behind

variable {bytes lines : Nat}

def Place.shift (bytes lines : Nat) (p : Place) : Place := { p with at_ := p.at_ + bytes, line := p.line + lines }

theorem Place.shift_pass (p : Place) (c : Char) :
    (p.shift bytes lines).pass c = (p.pass c).shift bytes lines := by
  unfold Place.pass Place.shift
  simp only [Place.mk.injEq, and_true]
  refine ⟨Nat.add_right_comm _ _ _, ?_⟩
  split
  · exact Nat.add_right_comm _ _ _
  · rfl

theorem tokensFrom_shift (skip : Nat) (p : Place) (text : List Char) :
    tokensFrom skip (p.shift bytes lines) text = (tokensFrom skip p text).map (Token.shift bytes lines) := by
  induction text generalizing skip p with
  | nil => cases skip <;> rfl
  | cons c rest ih =>
    cases skip with
    | succ skip =>
      rw [tokensFrom, tokensFrom, Place.shift_pass]
      exact ih skip (p.pass c)
    | zero =>
      cases found : Lexeme.find c rest with
      | blank =>
        rw [tokensFrom_blank found, tokensFrom_blank found, Place.shift_pass]
        exact ih 0 _
      | newline =>
        rw [tokensFrom_newline found, tokensFrom_newline found, Place.shift_pass]
        exact ih 0 { p.pass c with newline := true }
      | comment size =>
        rw [tokensFrom_comment found, tokensFrom_comment found, Place.shift_pass]
        exact ih _ { p.pass c with comments := p.comments ++ [String.ofList ((c :: rest).take size)] }
      | token kind size =>
        rw [tokensFrom_token found, tokensFrom_token found, Place.shift_pass, List.map_cons]
        congr 1
        · simp [Token.ofFound, Token.shift, Place.shift, Nat.add_right_comm]
        · exact ih _ { p.pass c with newline := false, comments := [] }

-- What stands before the first token of a text is told by that token alone.
theorem tokensFrom_begin (skip : Nat) (p : Place) (b : Bool) (comments : List String) (text : List Char) :
    ∃ t more b' comments', tokensFrom skip p text = t :: more ∧
      tokensFrom skip { p with newline := b, comments := comments } text =
        { t with newline := b', comments := comments' } :: more ∧ (b = true → b' = true) := by
  induction text generalizing skip p b comments with
  | nil => cases skip <;> exact ⟨_, [], b, comments, rfl, rfl, id⟩
  | cons c rest ih =>
    cases skip with
    | succ skip =>
      rw [tokensFrom, tokensFrom]
      exact ih skip (p.pass c) b comments
    | zero =>
      cases found : Lexeme.find c rest with
      | blank =>
        rw [tokensFrom_blank found, tokensFrom_blank found]
        exact ih 0 (p.pass c) b comments
      | newline =>
        rw [tokensFrom_newline found, tokensFrom_newline found]
        obtain ⟨t, more, b', comments', one, other, begun⟩ := ih 0 { p.pass c with newline := true } true comments
        exact ⟨t, more, b', comments', one, other, fun _ => begun rfl⟩
      | comment size =>
        rw [tokensFrom_comment found, tokensFrom_comment found]
        exact ih _ { p.pass c with comments := p.comments ++ [String.ofList ((c :: rest).take size)] } b
          (comments ++ [String.ofList ((c :: rest).take size)])
      | token kind size =>
        rw [tokensFrom_token found, tokensFrom_token found]
        exact ⟨_, _, b, comments, rfl, rfl, id⟩

end Behind

-- Where a division stands directly before an asterisk, a comment begins that is not closed.
def CommentOpen (ts : List Token) : Prop :=
  ∃ t ∈ ts, ∃ u ∈ ts, t.text = "/" ∧ u.start = t.stop ∧ u.text.toList.head? = some '*'

theorem CommentOpen.mono {ts ts' : List Token} (within : ts ⊆ ts') : CommentOpen ts → CommentOpen ts' := by
  rintro ⟨t, member, u, member', meets⟩
  exact ⟨t, within member, u, within member', meets⟩

theorem tokensFrom_opens {c : Char} {rest : List Char} (opens : Lexeme.Opens c rest) (p : Place) :
    CommentOpen (tokensFrom 0 p (c :: rest)) := by
  obtain ⟨d, rest, rfl⟩ : ∃ d rest', rest = d :: rest' := by
    cases rest with
    | nil => cases opens.2.1
    | cons d rest => exact ⟨d, rest, rfl⟩
  obtain ⟨rfl, star, _⟩ := id opens
  cases star
  obtain ⟨kind, size, found⟩ := Lexeme.find_star rest
  let next : Place := { p.pass '/' with newline := false, comments := [] }
  have second := tokensFrom_token found next
  rw [tokensFrom_token (Lexeme.find_opens opens)]
  refine ⟨_, List.mem_cons_self, Token.ofFound found next, List.mem_cons_of_mem _ ?_, rfl, rfl, ?_⟩
  · exact second ▸ List.mem_cons_self
  · simp [Token.ofFound]

-- What is taken within a text is taken of every longer one, and what is then passed over is in the text.
theorem take_within {c : Char} {rest : List Char} {n : Nat} (inside : n ≤ (c :: rest).length) (tail : List Char) :
    (c :: (rest ++ tail)).take n = (c :: rest).take n ∧ ((c :: rest).take n).length - 1 ≤ rest.length := by
  refine ⟨List.take_append_of_le_length inside, ?_⟩
  rw [List.length_take, List.length_cons]
  omega

theorem tokensFrom_append {skip : Nat} {p : Place} {text : List Char} {tail : List Char} (within : skip ≤ text.length)
    (plain : ∀ t ∈ tokensFrom skip p text, t.kind ≠ .stray)
    (closed : CommentOpen (tokensFrom skip p text) → occursIn "*/".toList tail = false) :
    ∃ (X : List Token) (q : Place), tokensFrom skip p text = X ++ [.ending q.at_ q.line q.newline q.comments] ∧
      q.at_ = p.at_ + byteLength text ∧
      tokensFrom skip p (text ++ '\n' :: tail) = X ++ tokensFrom 0 { q.pass '\n' with newline := true } tail := by
  induction text generalizing skip p with
  | nil =>
    obtain rfl : skip = 0 := Nat.le_zero.mp within
    exact ⟨[], p, rfl, rfl, tokensFrom_newline (by simp [Lexeme.find]) p⟩
  | cons c rest ih =>
    have size (q : Place) (place : q.at_ = (p.pass c).at_ + byteLength rest) : q.at_ = p.at_ + byteLength (c :: rest) := by
      rw [place, byteLength_cons, Place.pass_at, Nat.add_assoc]
    cases skip with
    | succ skip =>
      rw [tokensFrom] at plain closed
      obtain ⟨X, q, one, place, other⟩ := ih (Nat.le_of_succ_le_succ within) plain closed
      refine ⟨X, q, ?_, size q place, ?_⟩
      · rw [tokensFrom, one]
      · rw [List.cons_append, tokensFrom, other]
    | zero =>
      have unstray : ∀ n, Lexeme.find c rest ≠ .token .stray n := by
        intro n found
        rw [tokensFrom_token found] at plain
        exact plain _ List.mem_cons_self rfl
      have same := Lexeme.find_line unstray fun opens => closed (tokensFrom_opens opens p)
      cases found : Lexeme.find c rest with
      | blank =>
        rw [tokensFrom_blank found] at plain closed ⊢
        rw [List.cons_append, tokensFrom_blank (same.trans found)]
        obtain ⟨X, q, one, place, other⟩ := ih (Nat.zero_le _) plain closed
        exact ⟨X, q, one, size q place, other⟩
      | newline =>
        rw [tokensFrom_newline found] at plain closed ⊢
        rw [List.cons_append, tokensFrom_newline (same.trans found)]
        obtain ⟨X, q, one, place, other⟩ := ih (Nat.zero_le _) plain closed
        exact ⟨X, q, one, size q place, other⟩
      | comment n =>
        have inside : n ≤ (c :: rest).length := Lexeme.comment_within found
        obtain ⟨taken, short⟩ := take_within inside ('\n' :: tail)
        rw [tokensFrom_comment found] at plain closed ⊢
        rw [List.cons_append, tokensFrom_comment (same.trans found), taken]
        obtain ⟨X, q, one, place, other⟩ := ih short plain closed
        exact ⟨X, q, one, size q place, other⟩
      | token kind n =>
        have inside : n ≤ (c :: rest).length := by
          refine Lexeme.token_within found ?_
          rintro rfl
          exact unstray n found
        obtain ⟨taken, short⟩ := take_within inside ('\n' :: tail)
        have first : Token.ofFound (same.trans found) p = Token.ofFound found p := by
          simp [Token.ofFound, taken]
        rw [tokensFrom_token found] at plain closed ⊢
        rw [List.cons_append, tokensFrom_token (same.trans found), taken, first]
        obtain ⟨X, q, one, place, other⟩ := ih short (fun t member => plain t (List.mem_cons_of_mem _ member))
          fun opened => closed (opened.mono (List.subset_cons_self _ _))
        exact ⟨Token.ofFound found p :: X, q, by rw [one]; rfl, size q place, by rw [other]; rfl⟩

theorem tokensFrom_ended (skip : Nat) (p : Place) (text : List Char) :
    (tokensFrom skip p text).Pairwise fun t _ => t.kind ≠ .eof := by
  induction text generalizing skip p with
  | nil =>
    rw [tokensFrom]
    exact List.pairwise_singleton _ _
  | cons c rest ih =>
    cases skip with
    | succ skip =>
      rw [tokensFrom]
      exact ih _ _
    | zero =>
      rw [tokensFrom]
      split
      · exact ih _ _
      · exact ih _ _
      · exact ih _ _
      · rename_i kind size found
        exact List.pairwise_cons.mpr ⟨fun _ _ => Lexeme.kind_ne_eof found, ih _ _⟩

def Marked (source : String) : Prop := ∃ c, source.toList.head? = some c ∧ c.toNat = 0xFEFF

-- A byte order mark is passed over at the beginning of a source only.
theorem tokens_unmarked {source : String} (unmarked : ¬ Marked source) :
    tokens source = tokensFrom 0 ⟨0, 1, false, []⟩ source.toList := by
  unfold tokens
  cases chars : source.toList with
  | nil => rfl
  | cons c rest =>
    have other : ¬ (c.toNat == 0xFEFF) = true := fun mark => unmarked ⟨c, by rw [chars]; rfl, eq_of_beq mark⟩
    dsimp only
    rw [if_neg other]

theorem tokensFrom_marked {text : List Char} {c : Char} (head : text.head? = some c) (mark : c.toNat = 0xFEFF) (p : Place) :
    ∃ t ∈ tokensFrom 0 p text, t.kind = .stray := by
  cases text with
  | nil => cases head
  | cons d rest =>
    cases head
    rw [tokensFrom_token (Lexeme.find_marked mark rest)]
    exact ⟨_, List.mem_cons_self, rfl⟩

theorem tokens_line (source tail : String) : ∃ lead rest, source.toList = lead ++ rest ∧
    tokens source = tokensFrom 0 ⟨byteLength lead, 1, false, []⟩ rest ∧
      tokens (source ++ "\n" ++ tail) = tokensFrom 0 ⟨byteLength lead, 1, false, []⟩ (rest ++ '\n' :: tail.toList) := by
  have whole : (source ++ "\n" ++ tail).toList = source.toList ++ '\n' :: tail.toList := by simp
  unfold tokens
  rw [whole]
  cases chars : source.toList with
  | nil => exact ⟨[], [], rfl, rfl, rfl⟩
  | cons c rest =>
    rw [List.cons_append]
    dsimp only
    split
    · rename_i mark
      refine ⟨[c], rest, rfl, ?_, ?_⟩
      · rw [byteLength_cons, marked_size (eq_of_beq mark)]
        rfl
      · rw [byteLength_cons, marked_size (eq_of_beq mark)]
        rfl
    · exact ⟨[], c :: rest, rfl, rfl, rfl⟩

-- The tokens of a source without its end, and those of the lines behind it.
theorem tokens_append {source tail : String} (plain : ∀ t ∈ tokens source, t.kind ≠ .stray)
    (closed : CommentOpen (tokens source) → contains tail "*/" = false) :
    ∃ (X : List Token) (q : Place), tokens source = X ++ [.ending q.at_ q.line q.newline q.comments] ∧
      q.at_ = byteLength source.toList ∧
      tokens (source ++ "\n" ++ tail) = X ++ tokensFrom 0 { q.pass '\n' with newline := true } tail.toList := by
  obtain ⟨lead, rest, whole, one, other⟩ := tokens_line source tail
  rw [one] at plain closed
  obtain ⟨X, q, split, place, further⟩ := tokensFrom_append (Nat.zero_le _) plain closed
  refine ⟨X, q, one.trans split, ?_, other.trans further⟩
  rw [place, whole, byteLength_append]

end CallAtlas.Go
