import CallAtlas.Go.SourceFile

namespace CallAtlas.Text

theorem foldl_utf8Size (text : List Char) (n : Nat) :
    text.foldl (fun n c => n + c.utf8Size) n = n + byteLength text := by
  induction text generalizing n with
  | nil => rfl
  | cons c rest ih =>
    have whole : byteLength (c :: rest) = c.utf8Size + byteLength rest := by
      rw [byteLength, List.foldl_cons, ih, Nat.zero_add]
    rw [List.foldl_cons, ih, whole, Nat.add_assoc]

@[simp] theorem byteLength_nil : byteLength [] = 0 := rfl

@[simp] theorem byteLength_cons (c : Char) (rest : List Char) :
    byteLength (c :: rest) = c.utf8Size + byteLength rest := by
  rw [byteLength, List.foldl_cons, foldl_utf8Size, Nat.zero_add]

@[simp] theorem byteLength_append (front behind : List Char) :
    byteLength (front ++ behind) = byteLength front + byteLength behind := by
  rw [byteLength, List.foldl_append, foldl_utf8Size]
  rfl

@[simp] theorem dropBytes_zero (text : List Char) : dropBytes 0 text = text := by
  cases text <;> rfl

theorem dropBytes_cons (c : Char) (n : Nat) (rest : List Char) :
    dropBytes (c.utf8Size + n) (c :: rest) = dropBytes n rest := by
  have size := c.utf8Size_pos
  rw [dropBytes, Nat.add_sub_cancel_left]
  omega

theorem takeBytes_cons (c : Char) (n : Nat) (rest : List Char) :
    takeBytes (c.utf8Size + n) (c :: rest) = c :: takeBytes n rest := by
  have size := c.utf8Size_pos
  rw [takeBytes, Nat.add_sub_cancel_left]
  omega

theorem dropBytes_add (front : List Char) (n : Nat) (behind : List Char) :
    dropBytes (byteLength front + n) (front ++ behind) = dropBytes n behind := by
  induction front with
  | nil => rw [byteLength_nil, Nat.zero_add, List.nil_append]
  | cons c rest ih => rw [byteLength_cons, Nat.add_assoc, List.cons_append, dropBytes_cons, ih]

theorem dropBytes_append (front behind : List Char) : dropBytes (byteLength front) (front ++ behind) = behind := by
  simpa using dropBytes_add front 0 behind

theorem takeBytes_append (front behind : List Char) : takeBytes (byteLength front) (front ++ behind) = front := by
  induction front with
  | nil => cases behind <;> rfl
  | cons c rest ih => rw [byteLength_cons, List.cons_append, takeBytes_cons, ih]

theorem slice_append (front inside behind : List Char) :
    slice (front ++ (inside ++ behind)) (byteLength front) (byteLength front + byteLength inside) =
      String.ofList inside := by
  rw [slice, dropBytes_append, Nat.add_sub_cancel_left, takeBytes_append]

theorem takeBytes_front {n : Nat} {text : List Char} (within : n ≤ byteLength text) (behind : List Char) :
    takeBytes n (text ++ behind) = takeBytes n text := by
  induction text generalizing n with
  | nil =>
    obtain rfl : n = 0 := Nat.le_zero.mp within
    cases behind <;> rfl
  | cons c rest ih =>
    cases n with
    | zero => rfl
    | succ n =>
      rw [byteLength_cons] at within
      rw [List.cons_append, takeBytes, takeBytes, ih (by omega)]
      · nofun
      · nofun

-- A part of a text is the same if more follows the text.
theorem slice_front {text lead rest : List Char} {start stop : Nat} (whole : text = lead ++ rest)
    (place : start = byteLength lead) (within : stop ≤ byteLength text) (behind : List Char) :
    slice (text ++ behind) start stop = slice text start stop := by
  subst whole place
  rw [byteLength_append] at within
  rw [slice, slice, List.append_assoc, dropBytes_append, dropBytes_append, takeBytes_front (by omega)]

-- Of two beginnings of a text the shorter is one of the longer.
theorem prefix_of_bytes {front rest lead behind : List Char} (same : front ++ rest = lead ++ behind)
    (shorter : byteLength front ≤ byteLength lead) : front <+: lead := by
  refine List.prefix_of_prefix_length_le ⟨rest, same⟩ ⟨behind, rfl⟩ (Nat.le_of_not_lt fun longer => ?_)
  obtain ⟨more, rfl⟩ := List.prefix_of_prefix_length_le ⟨behind, rfl⟩ ⟨rest, same⟩ (Nat.le_of_lt longer)
  cases more with
  | nil => simp at longer
  | cons c more =>
    have size := c.utf8Size_pos
    rw [byteLength_append, byteLength_cons] at shorter
    omega

end CallAtlas.Text

namespace CallAtlas.Go

open CallAtlas.Text

-- The text has the token's text where the token says it stands.
def Token.Spelled (chars : List Char) (t : Token) : Prop :=
  ∃ lead taken behind, chars = lead ++ (taken ++ behind) ∧ t.start = byteLength lead ∧
    t.stop = byteLength lead + byteLength taken ∧ t.text = String.ofList taken

def Token.Found (chars : List Char) (t : Token) : Prop :=
  ∃ lead c rest size, chars = lead ++ c :: rest ∧ Lexeme.find c rest = .token t.kind size ∧
    t.start = byteLength lead ∧ t.stop = byteLength lead + byteLength ((c :: rest).take size) ∧
    t.text = String.ofList ((c :: rest).take size)

theorem Token.Found.spelled {chars : List Char} {t : Token} (found : t.Found chars) : t.Spelled chars := by
  obtain ⟨lead, c, rest, size, rfl, _, start, stop, text⟩ := found
  exact ⟨lead, (c :: rest).take size, (c :: rest).drop size, by rw [List.take_append_drop], start, stop, text⟩

theorem Place.pass_at (p : Place) (c : Char) : (p.pass c).at_ = p.at_ + c.utf8Size := rfl

theorem tokensFrom_found {skip : Nat} {p : Place} {lead rest : List Char} (place : p.at_ = byteLength lead) :
    ∀ t ∈ tokensFrom skip p rest, t.kind = .eof ∧ t.Spelled (lead ++ rest) ∨ t.Found (lead ++ rest) := by
  induction rest generalizing skip p lead with
  | nil =>
    intro t member
    rw [tokensFrom, List.mem_singleton] at member
    subst member
    refine .inl ⟨rfl, lead, [], [], rfl, place, ?_, rfl⟩
    simp [Token.ending, place]
  | cons c rest ih =>
    have next : (p.pass c).at_ = byteLength (lead ++ [c]) := by
      rw [Place.pass_at, place]
      simp
    have behind : lead ++ c :: rest = (lead ++ [c]) ++ rest := by simp
    intro t member
    cases skip with
    | succ skip =>
      rw [tokensFrom] at member
      rw [behind]
      exact ih next t member
    | zero =>
      rw [tokensFrom] at member
      split at member
      · rw [behind]
        exact ih next t member
      · rw [behind]
        exact ih (by exact next) t member
      · rw [behind]
        exact ih (by exact next) t member
      · rename_i kind size found
        rcases List.mem_cons.mp member with rfl | member
        · exact .inr ⟨lead, c, rest, size, rfl, found, place, by rw [← place], rfl⟩
        · rw [behind]
          exact ih (by exact next) t member

theorem marked_size {c : Char} (mark : c.toNat = 0xFEFF) : c.utf8Size = 3 := by
  have same : c = Char.ofNat 0xFEFF := by rw [← mark, Char.ofNat_toNat]
  subst same
  decide

-- A byte order mark is passed over, but it counts.
theorem tokens_eq (source : String) : ∃ lead rest, source.toList = lead ++ rest ∧
    tokens source = tokensFrom 0 ⟨byteLength lead, 1, false, []⟩ rest := by
  unfold tokens
  cases chars : source.toList with
  | nil => exact ⟨[], [], rfl, rfl⟩
  | cons c rest =>
    dsimp only
    split
    · rename_i mark
      refine ⟨[c], rest, rfl, ?_⟩
      rw [byteLength_cons, marked_size (eq_of_beq mark)]
      rfl
    · exact ⟨[], c :: rest, rfl, rfl⟩

theorem tokens_found {source : String} {t : Token} (member : t ∈ tokens source) :
    t.kind = .eof ∧ t.Spelled source.toList ∨ t.Found source.toList := by
  obtain ⟨lead, rest, whole, same⟩ := tokens_eq source
  rw [whole]
  exact tokensFrom_found rfl t (same ▸ member)

theorem tokens_spelled {source : String} {t : Token} (member : t ∈ tokens source) : t.Spelled source.toList := by
  rcases tokens_found member with ⟨_, spelled⟩ | found
  · exact spelled
  · exact found.spelled

def Token.Before (t u : Token) : Prop := t.start + byteLength t.text.toList ≤ u.start

theorem tokensFrom_after {skip : Nat} {p : Place} {rest : List Char} :
    ∀ t ∈ tokensFrom skip p rest, p.at_ + byteLength (rest.take skip) ≤ t.start := by
  induction rest generalizing skip p with
  | nil =>
    intro t member
    rw [tokensFrom, List.mem_singleton] at member
    subst member
    simp [Token.ending]
  | cons c rest ih =>
    intro t member
    have later : ∀ {skip q}, q.at_ = p.at_ + c.utf8Size → t ∈ tokensFrom skip q rest → p.at_ ≤ t.start := by
      intro skip q place member
      have bound := ih t member
      omega
    cases skip with
    | succ skip =>
      rw [tokensFrom] at member
      have bound := ih t member
      rw [List.take_succ_cons, byteLength_cons]
      rw [Place.pass_at] at bound
      omega
    | zero =>
      rw [tokensFrom] at member
      rw [List.take_zero, byteLength_nil, Nat.add_zero]
      split at member
      · exact later rfl member
      · exact later rfl member
      · exact later rfl member
      · rcases List.mem_cons.mp member with rfl | member
        · exact Nat.le_refl _
        · exact later rfl member

theorem tokensFrom_ordered {skip : Nat} {p : Place} {rest : List Char} :
    (tokensFrom skip p rest).Pairwise Token.Before := by
  induction rest generalizing skip p with
  | nil =>
    rw [tokensFrom]
    exact List.pairwise_singleton _ _
  | cons c rest ih =>
    cases skip with
    | succ skip =>
      rw [tokensFrom]
      exact ih
    | zero =>
      rw [tokensFrom]
      split
      · exact ih
      · exact ih
      · exact ih
      · rename_i kind size _
        refine List.pairwise_cons.mpr ⟨fun u member => ?_, ih⟩
        have bound : p.at_ + c.utf8Size + byteLength (rest.take (((c :: rest).take size).length - 1)) ≤ u.start :=
          tokensFrom_after u member
        change p.at_ + byteLength (String.ofList ((c :: rest).take size)).toList ≤ u.start
        rw [String.toList_ofList]
        cases size with
        | zero =>
          rw [List.take_zero, byteLength_nil]
          omega
        | succ size =>
          have same : rest.take (((c :: rest).take (size + 1)).length - 1) = rest.take size := by
            rw [List.take_succ_cons, List.length_cons, Nat.add_sub_cancel, List.length_take, ← List.take_eq_take_min]
          rw [same] at bound
          rw [List.take_succ_cons, byteLength_cons]
          omega

theorem tokens_ordered (source : String) : (tokens source).Pairwise Token.Before := by
  obtain ⟨lead, rest, _, same⟩ := tokens_eq source
  rw [same]
  exact tokensFrom_ordered

namespace Lexeme

theorem interpretedSize_text {text : List Char} {n : Nat} (size : interpretedSize text = some n) :
    ∃ content, text.take n = content ++ ['"'] ∧ content.head? ≠ some '"' := by
  suffices ∃ content, text.take n = content ++ ['"'] by
    obtain ⟨content, taken⟩ := this
    refine ⟨content, taken, ?_⟩
    cases text with
    | nil => cases size
    | cons c rest =>
      by_cases quote : c = '"'
      · subst quote
        rw [interpretedSize] at size
        cases size
        cases content with
        | nil => simp
        | cons d more => simp at taken
      · cases content with
        | nil => simp
        | cons d more =>
          cases n with
          | zero => cases taken
          | succ n =>
            rw [List.take_succ_cons, List.cons_append, List.cons.injEq] at taken
            rw [← taken.1]
            simpa using quote
  fun_induction interpretedSize text generalizing n with
  | case1 => cases size
  | case2 =>
    cases size
    exact ⟨[], rfl⟩
  | case3 => cases size
  | case4 => cases size
  | case5 => cases size
  | case6 => cases size
  | case7 c rest _ _ _ ih =>
    obtain ⟨m, further, rfl⟩ := Option.map_eq_some_iff.mp size
    obtain ⟨content, taken⟩ := ih further
    exact ⟨'\\' :: c :: content, by simp [taken]⟩
  | case8 => cases size
  | case9 c rest _ _ _ _ ih =>
    obtain ⟨m, further, rfl⟩ := Option.map_eq_some_iff.mp size
    obtain ⟨content, taken⟩ := ih further
    exact ⟨c :: content, by simp [taken]⟩

theorem rawSize_text {text : List Char} {n : Nat} (size : rawSize text = some n) :
    ∃ content, text.take n = content ++ ['\x60'] ∧ '\x60' ∉ content := by
  induction text generalizing n with
  | nil => cases size
  | cons c rest ih =>
    rw [rawSize] at size
    split at size
    · rename_i quote
      cases size
      exact ⟨[], by simp [eq_of_beq quote], nofun⟩
    · rename_i other
      obtain ⟨m, further, rfl⟩ := Option.map_eq_some_iff.mp size
      obtain ⟨content, taken, inside⟩ := ih further
      refine ⟨c :: content, by simp [taken], ?_⟩
      intro member
      rcases List.mem_cons.mp member with same | member
      · exact other (by simp [← same])
      · exact inside member

theorem tokenOrStray_eq {given kind : TokenKind} {size : Option Nat} {n : Nat}
    (found : tokenOrStray given size = .token kind n) : given = kind ∧ size = some n ∨ kind = .stray := by
  cases size with
  | none => cases found; exact .inr rfl
  | some size => cases found; exact .inl ⟨rfl, rfl⟩

-- What begins each kind of token.
inductive Begins (c : Char) (rest : List Char) : TokenKind → Nat → Prop
  | word (start : isIdentStart c = true) : Begins c rest .word ((rest.takeWhile isIdentPart).length + 1)
  | interpreted {n : Nat} (quote : c = '"') (size : interpretedSize rest = some n) : Begins c rest .interpreted (n + 1)
  | raw {n : Nat} (quote : c = '\x60') (size : rawSize rest = some n) : Begins c rest .raw (n + 1)
  | rune {n : Nat} (quote : c = '\'') (size : runeSize rest = some n) : Begins c rest .rune (n + 1)
  | number {kind : TokenKind} {n : Nat} (size : number (c :: rest) = some (kind, n)) : Begins c rest kind n
  | mark {n : Nat} (size : markSize (c :: rest) = some n) : Begins c rest .mark n
  | stray {n : Nat} : Begins c rest .stray n

theorem find_begins {c : Char} {rest : List Char} {kind : TokenKind} {size : Nat}
    (found : find c rest = .token kind size) : Begins c rest kind size := by
  have sized : ∀ {given : TokenKind} {found : Option Nat}, tokenOrStray given found = .token kind size →
      (∀ n, found = some n → Begins c rest given n) → Begins c rest kind size := by
    intro given measured found begins
    rcases tokenOrStray_eq found with ⟨rfl, sized⟩ | rfl
    · exact begins size sized
    · exact .stray
  unfold find at found
  dsimp only at found
  split at found
  · cases found
  split at found
  · cases found
  split at found
  · cases found
  split at found
  · split at found
    · cases found
    · exact sized found fun n size => .mark size
  split at found
  · rename_i start
    cases found
    exact .word start
  split at found
  · rename_i quote
    refine sized found fun n measured => ?_
    obtain ⟨m, size, rfl⟩ := Option.map_eq_some_iff.mp measured
    exact .interpreted (eq_of_beq quote) size
  split at found
  · rename_i quote
    refine sized found fun n measured => ?_
    obtain ⟨m, size, rfl⟩ := Option.map_eq_some_iff.mp measured
    exact .raw (eq_of_beq quote) size
  split at found
  · rename_i quote
    refine sized found fun n measured => ?_
    obtain ⟨m, size, rfl⟩ := Option.map_eq_some_iff.mp measured
    exact .rune (eq_of_beq quote) size
  split at found
  · rename_i size
    cases found
    exact .number size
  · exact sized found fun n size => .mark size

end Lexeme

theorem Token.Found.interpreted {chars : List Char} {t : Token} (found : t.Found chars) (kind : t.kind = .interpreted) :
    ∃ content, t.text.toList = '"' :: (content ++ ['"']) ∧ content.head? ≠ some '"' := by
  obtain ⟨lead, c, rest, size, _, found, _, _, text⟩ := found
  rw [kind] at found
  rw [text, String.toList_ofList]
  cases Lexeme.find_begins found with
  | interpreted quote size =>
    obtain ⟨content, taken, head⟩ := Lexeme.interpretedSize_text size
    exact ⟨content, by rw [List.take_succ_cons, quote, taken], head⟩
  | number size => exact absurd (Lexeme.number_kind size) (by decide)

theorem Token.Found.raw {chars : List Char} {t : Token} (found : t.Found chars) (kind : t.kind = .raw) :
    ∃ content, t.text.toList = '\x60' :: (content ++ ['\x60']) ∧ '\x60' ∉ content := by
  obtain ⟨lead, c, rest, size, _, found, _, _, text⟩ := found
  rw [kind] at found
  rw [text, String.toList_ofList]
  cases Lexeme.find_begins found with
  | raw quote size =>
    obtain ⟨content, taken, inside⟩ := Lexeme.rawSize_text size
    exact ⟨content, by rw [List.take_succ_cons, quote, taken], inside⟩
  | number size => exact absurd (Lexeme.number_kind size) (by decide)

end CallAtlas.Go
