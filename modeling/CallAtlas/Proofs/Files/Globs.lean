import CallAtlas.Files.Glob

namespace CallAtlas

open CallAtlas.Text

namespace Text

theorem toList_loop (bytes : ByteArray) (i : Nat) (read : List UInt8) :
    ByteArray.toList.loop bytes i read = read.reverse ++ bytes.data.toList.drop i := by
  fun_induction ByteArray.toList.loop bytes i read with
  | case1 i read more ih =>
    have inside : i < bytes.data.toList.length := by simpa using more
    rw [ih, List.drop_eq_getElem_cons inside]
    simp [ByteArray.get!, more]
  | case2 i read done =>
    rw [List.drop_eq_nil_of_le (by simpa using Nat.le_of_not_lt done), List.append_nil]

theorem toList_data (bytes : ByteArray) : bytes.toList = bytes.data.toList := by
  rw [ByteArray.toList, toList_loop]
  rfl

theorem bytes_append (a b : String) :
    (a ++ b).toUTF8.toList = a.toUTF8.toList ++ b.toUTF8.toList := by
  simp only [toList_data, String.toUTF8_eq_toByteArray, String.toByteArray_append,
    ByteArray.toList_data_append]

-- The bytes of a text are a beginning of those of another only if its characters are.
theorem chars_begin {as bs : List Char} {rest : ByteArray}
    (same : as.utf8Encode ++ rest = bs.utf8Encode) : as <+: bs := by
  induction as generalizing bs with
  | nil => exact List.nil_prefix
  | cons a more ih =>
    rw [List.utf8Encode_cons, ByteArray.append_assoc] at same
    have first := congrArg (ByteArray.utf8DecodeChar? · 0) same
    rw [List.utf8DecodeChar?_utf8Encode_singleton_append] at first
    cases bs with
    | nil => cases first
    | cons b others =>
      rw [List.utf8DecodeChar?_utf8Encode_cons] at first
      cases Option.some.inj first
      rw [@List.utf8Encode_cons a others, ByteArray.append_right_inj] at same
      exact List.cons_prefix_cons.mpr ⟨rfl, ih same⟩

theorem startsWith_bytes (text lead : String) :
    startsWith text lead = true ↔ ∃ rest, text.toUTF8.toList = lead.toUTF8.toList ++ rest := by
  rw [startsWith, List.isPrefixOf_iff_prefix]
  constructor
  · rintro ⟨rest, whole⟩
    have spelled : text = lead ++ String.ofList rest := by
      rw [← String.toList_inj, String.toList_append, String.toList_ofList, whole]
    exact ⟨_, by rw [spelled, bytes_append]⟩
  · rintro ⟨rest, whole⟩
    refine @chars_begin lead.toList text.toList rest.toByteArray ?_
    rw [String.utf8Encode_toList, String.utf8Encode_toList]
    rw [toList_data, toList_data, String.toUTF8_eq_toByteArray, String.toUTF8_eq_toByteArray] at whole
    apply ByteArray.ext
    rw [← Array.toList_inj, ByteArray.toList_data_append, List.toList_data_toByteArray, whole]

end Text

namespace Glob

-- The characters that stand for something else in a glob.
def signs : List Char := ['?', '*', '[', '\x7b', '\x7d', '\\']

def Plain (text : String) : Prop := ∀ c ∈ text.toList, c ∉ signs

instance (text : String) : Decidable (Plain text) := List.decidableBAll (· ∉ signs) text.toList

variable {rules : GlobRules}

theorem readParts_plain {c : Char} (plain : c ∉ signs) (fuel : Nat) (current : List Part)
    (last : Option Char) (rest : List Char) :
    readParts rules (fuel + 1) ⟨[⟨[], current⟩], last⟩ (c :: rest) =
      readParts rules fuel ⟨[⟨[], .char c :: current⟩], some c⟩ rest := by
  simp only [signs, List.mem_cons, List.not_mem_nil, or_false, not_or] at plain
  obtain ⟨one, many, set, opens, closes, escape⟩ := plain
  by_cases comma : c = ','
  · subst comma
    rfl
  · rw [readParts]
    · rfl
    all_goals simp_all

theorem readParts_directory {dir : List Char} (plain : ∀ c ∈ dir, c ∉ signs) (fuel : Nat)
    (current : List Part) (last : Option Char) :
    readParts rules (dir.length + (fuel + 3)) ⟨[⟨[], current⟩], last⟩ (dir ++ ['/', '*', '*']) =
      some (current.reverse ++ dir.map .char ++ [.trailing]) := by
  induction dir generalizing current last with
  | nil => simp [readParts, State.push, State.read, State.doubleStar, State.isFresh, State.replaceLast]
  | cons c rest ih =>
    obtain ⟨first, others⟩ := List.forall_mem_cons.mp plain
    have more : (c :: rest).length + (fuel + 3) = rest.length + (fuel + 3) + 1 := by
      rw [List.length_cons]
      omega
    rw [more, List.cons_append, readParts_plain first, ih others]
    simp

theorem expand_chars (chars : List Char) (last : List Part) :
    expand (chars.map .char ++ last) =
      (expand last).map ((chars.flatMap bytesOf).map Step.byte ++ ·) := by
  induction chars with
  | nil => simp
  | cons c rest ih => simp [expand, expandPart, ih, Function.comp_def]

theorem bytesOf_chars (chars : List Char) :
    chars.flatMap bytesOf = (String.ofList chars).toUTF8.toList := by
  induction chars with
  | nil => simp [toList_data]
  | cons c rest ih =>
    have whole : String.ofList (c :: rest) = String.singleton c ++ String.ofList rest := by
      rw [← String.toList_inj]
      simp
    rw [List.flatMap_cons, ih, bytesOf, ← bytes_append, whole]

theorem suffixes_end (text : List UInt8) : [] ∈ suffixes text := by
  induction text with
  | nil => exact List.mem_cons_self
  | cons b rest ih => exact List.mem_cons_of_mem _ ih

theorem stepsMatch_directory (near : Bool) (dir text : List UInt8) :
    stepsMatch near (dir.map .byte ++ [.trailing]) text = true ↔
      ∃ rest, text = dir ++ slash :: rest := by
  induction dir generalizing text with
  | nil =>
    cases text with
    | nil => simp [stepsMatch]
    | cons b rest => simp [stepsMatch, suffixes_end]
  | cons c dir ih =>
    cases text with
    | nil => simp [stepsMatch]
    | cons b rest =>
      simp only [List.map_cons, List.cons_append, stepsMatch, Bool.and_eq_true, beq_iff_eq, ih,
        List.cons.injEq, exists_and_left]

-- The glob of all that is below a directory.
def below (rules : GlobRules) (dir : String) : Glob :=
  ⟨rules, [dir.toUTF8.toList.map .byte ++ [.trailing]]⟩

theorem read?_below {dir : String} (plain : Plain dir) :
    read? rules (dir ++ "/**") = some (below rules dir) := by
  have spelled : (dir ++ "/**").toList = dir.toList ++ ['/', '*', '*'] := String.toList_append
  have long : (dir.toList ++ ['/', '*', '*']).length + 1 = dir.toList.length + (1 + 3) := by
    rw [List.length_append]
    rfl
  have parts : readParts rules ((dir ++ "/**").toList.length + 1) {} (dir ++ "/**").toList =
      some (dir.toList.map .char ++ [.trailing]) := by
    rw [spelled, long]
    exact readParts_directory plain 1 [] none
  have shapes : expand (dir.toList.map .char ++ [.trailing]) =
      [dir.toUTF8.toList.map .byte ++ [.trailing]] := by
    rw [expand_chars, bytesOf_chars, String.ofList_toList]
    rfl
  have several : ∀ chars : List Char, chars.map Part.char ++ [.trailing] ≠ [.leading] := by
    intro chars
    cases chars <;> simp
  unfold read?
  dsimp only
  rw [parts, Option.bind_eq_bind, Option.bind_some]
  split
  · rename_i alone
    exact absurd alone (several _)
  · rw [shapes]
    simp [below, stepIsSound]

theorem below_accepts (dir text : String) :
    (below rules dir).accepts text = true ↔ startsWith text (dir ++ "/") = true := by
  have shapes : (below rules dir).accepts text =
      stepsMatch rules.stopsAtSeparator (dir.toUTF8.toList.map .byte ++ [.trailing]) text.toUTF8.toList := by
    simp [accepts, below]
  have slash_bytes : ("/" : String).toUTF8.toList = [slash] := by decide +kernel
  rw [shapes, stepsMatch_directory, startsWith_bytes, bytes_append, slash_bytes]
  simp only [List.append_assoc, List.singleton_append]

end Glob

end CallAtlas
