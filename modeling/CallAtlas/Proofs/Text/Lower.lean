import CallAtlas.Text.Basic
import CallAtlas.Text.Case
import Mathlib.Data.List.Induction

namespace CallAtlas.Text

def isSlash (c : Char) : Bool := c == '/'

structure Bare (text : List Char) : Prop where
  first : ∀ c, text.head? = some c → isSlash c = false
  last : ∀ c, text.getLast? = some c → isSlash c = false

theorem Bare.between {x y : List Char} (x_bare : Bare x) (y_bare : Bare y) (x_filled : x ≠ [])
    (y_filled : y ≠ []) (middle : List Char) : Bare (x ++ middle ++ y) := by
  refine ⟨?_, ?_⟩
  · obtain ⟨c, rest, rfl⟩ := List.exists_cons_of_ne_nil x_filled
    intro d first
    exact x_bare.first d first
  · intro d last
    rw [List.getLast?_append, List.getLast?_eq_some_getLast y_filled] at last
    exact y_bare.last d (by rw [List.getLast?_eq_some_getLast y_filled]; exact last)

variable {p : Char → Bool}

theorem trimEndBy_concat (text : List Char) (c : Char) :
    trimEndBy p (text ++ [c]) = if p c then trimEndBy p text else text ++ [c] := by
  induction text with
  | nil => rfl
  | cons d rest ih =>
    rw [List.cons_append, trimEndBy, ih]
    by_cases drops : p c = true
    · simp only [drops, if_true]
      rfl
    · simp only [drops]
      cases rest <;> rfl

theorem trimEndBy_bare {text : List Char} (bare : ∀ c, text.getLast? = some c → p c = false) :
    trimEndBy p text = text := by
  rcases List.eq_nil_or_concat text with rfl | ⟨front, c, rfl⟩
  · rfl
  · rw [List.concat_eq_append] at bare ⊢
    rw [trimEndBy_concat, bare c (by simp)]
    rfl

theorem trimEndBy_slashes (text : List Char) (n : Nat) :
    trimEndBy isSlash (text ++ List.replicate n '/') = trimEndBy isSlash text := by
  induction n with
  | zero => rw [List.replicate_zero, List.append_nil]
  | succ n ih =>
    rw [List.replicate_succ', ← List.append_assoc, trimEndBy_concat, ih]
    rfl

theorem trimEndBy_split (text : List Char) :
    ∃ n, text = trimEndBy isSlash text ++ List.replicate n '/' := by
  induction text using List.reverseRecOn with
  | nil => exact ⟨0, rfl⟩
  | append_singleton front c ih =>
    rw [trimEndBy_concat]
    split
    · rename_i slash
      obtain ⟨n, whole⟩ := ih
      refine ⟨n + 1, ?_⟩
      rw [List.replicate_succ', ← List.append_assoc, ← whole]
      rw [beq_iff_eq.mp slash]
    · exact ⟨0, by simp⟩

theorem trimEndBy_bare_last (text : List Char) :
    ∀ c, (trimEndBy p text).getLast? = some c → p c = false := by
  induction text using List.reverseRecOn with
  | nil => exact nofun
  | append_singleton front d ih =>
    rw [trimEndBy_concat]
    split
    · exact ih
    · rename_i stays
      intro c last
      rw [List.getLast?_concat] at last
      cases last
      simpa using stays

theorem trimEndBy_eq_self {text : List Char} : trimEndBy p text = text ↔ ∀ c, text.getLast? = some c → p c = false :=
  ⟨fun same => same ▸ trimEndBy_bare_last text, trimEndBy_bare⟩

-- Quotes are taken from both ends of a string; more than the delimiting ones exactly if it ends in another.
theorem trim_quotes {q : Char} {content : List Char} (head : content.head? ≠ some q) :
    trimBy (· == q) (q :: (content ++ [q])) = content ↔ content.getLast? ≠ some q := by
  have start : trimStartBy (· == q) (q :: (content ++ [q])) = if content = [] then [] else content ++ [q] := by
    cases content with
    | nil => simp [trimStartBy]
    | cons c more =>
      have other : (c == q) = false := by simpa using head
      simp [trimStartBy, other]
  rw [trimBy, start]
  split
  · rename_i empty
    subst empty
    simp [trimEndBy]
  · rw [trimEndBy_concat, if_pos (by simp), trimEndBy_eq_self]
    constructor
    · intro last same
      have other := last q same
      simp at other
    · intro last c same
      simp only [beq_eq_false_iff_ne]
      rintro rfl
      exact last same

theorem mem_trimEndBy {c : Char} (stays : p c = false) (text : List Char) :
    c ∈ trimEndBy p text ↔ c ∈ text := by
  induction text using List.reverseRecOn with
  | nil => rfl
  | append_singleton front d ih =>
    rw [trimEndBy_concat]
    split
    · rename_i drops
      have apart : c ≠ d := by
        rintro rfl
        cases stays.symm.trans drops
      simp [ih, apart]
    · rfl

theorem mem_trimBy {c : Char} (stays : p c = false) (text : List Char) : c ∈ trimBy p text ↔ c ∈ text := by
  rw [trimBy, mem_trimEndBy stays, trimStartBy]
  refine ⟨fun member => (List.dropWhile_sublist p).subset member, fun member => ?_⟩
  rw [← List.takeWhile_append_dropWhile (p := p) (l := text)] at member
  rcases List.mem_append.mp member with dropped | kept
  · cases stays.symm.trans (List.all_eq_true.mp List.all_takeWhile c dropped)
  · exact kept

-- Trimming takes slashes off both ends and leaves a text without any there.
theorem trimBy_split (text : List Char) :
    ∃ i j, text = List.replicate i '/' ++ trimBy isSlash text ++ List.replicate j '/' ∧
      Bare (trimBy isSlash text) := by
  have lead : text.takeWhile isSlash = List.replicate (text.takeWhile isSlash).length '/' := by
    refine List.eq_replicate_iff.mpr ⟨rfl, ?_⟩
    intro c member
    simpa [isSlash] using List.all_eq_true.mp List.all_takeWhile c member
  obtain ⟨j, rest⟩ := trimEndBy_split (text.dropWhile isSlash)
  refine ⟨(text.takeWhile isSlash).length, j, ?_, ?_, trimEndBy_bare_last _⟩
  · rw [← lead, List.append_assoc]
    unfold trimBy trimStartBy
    rw [← rest, List.takeWhile_append_dropWhile]
  · intro c first
    have head : (text.dropWhile isSlash).head? = some c := by
      rw [rest, List.head?_append]
      unfold trimBy trimStartBy at first
      rw [first]
      rfl
    have := List.head?_dropWhile_not isSlash text
    rw [head] at this
    simpa using this

theorem trimBy_bare {text : List Char} (bare : Bare text) (i j : Nat) :
    trimBy isSlash (List.replicate i '/' ++ text ++ List.replicate j '/') = text := by
  have slashes : ∀ n, ∀ c ∈ List.replicate n '/', isSlash c = true := by
    intro n c member
    rw [List.eq_of_mem_replicate member]
    rfl
  unfold trimBy trimStartBy
  rw [List.append_assoc, List.dropWhile_append_of_pos (slashes i)]
  cases text with
  | nil =>
    rw [List.nil_append, ← List.append_nil (List.replicate j '/'),
      List.dropWhile_append_of_pos (slashes j)]
    rfl
  | cons c rest =>
    have first := bare.first c rfl
    rw [List.cons_append, List.dropWhile_cons_of_neg (by simp [first]), ← List.cons_append,
      trimEndBy_slashes]
    exact trimEndBy_bare bare.last

-- A slash is neither cased nor passed over, so a search for a cased letter ends there.
theorem meetsCased_slash (text more : List Char) :
    meetsCased (text ++ '/' :: more) = meetsCased text := by
  have ignorable : meetsCased.isIgnorable '/' = false := by decide +kernel
  have cased : meetsCased.isCased '/' = false := by decide +kernel
  induction text with
  | nil => simp [meetsCased, ignorable, cased]
  | cons c rest ih => simp only [List.cons_append, meetsCased, ih]

theorem lowerChar_slash (before : List Char) (c : Char) (after more : List Char) :
    lowerChar before c (after ++ '/' :: more) = lowerChar before c after := by
  simp only [lowerChar, meetsCased_slash]

theorem lowerChars_before (before more text : List Char) :
    lowerChars (before ++ '/' :: more) text = lowerChars before text := by
  induction text generalizing before with
  | nil => rfl
  | cons c rest ih =>
    rw [lowerChars, lowerChars, ← List.cons_append, ih]
    simp only [lowerChar, meetsCased_slash]

theorem lowerChars_slash (before text more : List Char) :
    lowerChars before (text ++ '/' :: more) = lowerChars before text ++ '/' :: lowerChars [] more := by
  induction text generalizing before with
  | nil =>
    show '/' :: lowerChars ([] ++ '/' :: before) more = '/' :: lowerChars [] more
    rw [lowerChars_before]
  | cons c rest ih =>
    rw [List.cons_append, lowerChars, ih, lowerChar_slash, lowerChars, List.append_assoc]

theorem lowerChars_slashes (text : List Char) (i j : Nat) :
    lowerChars [] (List.replicate i '/' ++ text ++ List.replicate j '/') =
      List.replicate i '/' ++ lowerChars [] text ++ List.replicate j '/' := by
  have trailing : lowerChars [] (text ++ List.replicate j '/') =
      lowerChars [] text ++ List.replicate j '/' := by
    induction j with
    | zero => simp only [List.replicate_zero, List.append_nil]
    | succ j ih =>
      rw [List.replicate_succ', ← List.append_assoc, lowerChars_slash, ih, List.append_assoc]
      rfl
  induction i with
  | zero => exact trailing
  | succ i ih =>
    rw [List.replicate_succ, List.cons_append, List.cons_append, ← List.nil_append ('/' :: _),
      lowerChars_slash, ih]
    rfl

theorem ofNat_ne_slash {n : Nat} (other : n ≠ 47) : Char.ofNat n ≠ '/' := by
  intro same
  have code := congrArg Char.toNat same
  by_cases valid : n.isValidChar
  · rw [Char.ofNat, dif_pos valid] at code
    exact other code
  · rw [Char.ofNat, dif_neg valid] at code
    cases code

theorem shift_ne_slash {n : Nat} (large : 128 ≤ n) : CaseTable.shift CaseTable.lower n ≠ 47 := by
  -- The first letter of a run bounds the codes that the run leads to.
  have above : ∀ run ∈ CaseTable.lower, 47 < (run.first + run.shift : Int) := by decide +kernel
  unfold CaseTable.shift
  split
  · rename_i run found
    have bound := above run (List.mem_of_find?_eq_some found)
    have covered := List.find?_some found
    simp only [CaseTable.CaseRun.covers, Bool.and_eq_true, decide_eq_true_eq] at covered
    omega
  · omega

theorem lowerChar_filled (before : List Char) (c : Char) (after : List Char) :
    lowerChar before c after ≠ [] := by
  unfold lowerChar
  split
  · exact nofun
  · split
    · exact nofun
    · split
      · split <;> exact nofun
      · exact nofun

theorem lowerChar_slashless {c : Char} (other : c ≠ '/') (before after : List Char) :
    ∀ d ∈ lowerChar before c after, isSlash d = false := by
  have small : ∀ n : Fin 128, n.val ≠ 47 → isSlash (Char.ofNat n.val).toLower = false := by decide
  have code : c.toNat ≠ 47 := by
    intro same
    rw [← Char.ofNat_toNat c, same] at other
    exact other rfl
  unfold lowerChar
  by_cases ascii : c.toNat < 128
  · have lower := small ⟨c.toNat, ascii⟩ code
    rw [Char.ofNat_toNat] at lower
    rw [if_pos ascii]
    simpa using lower
  · rw [if_neg ascii]
    by_cases dotted : (c.toNat == 0x130) = true
    · rw [if_pos dotted]
      exact List.forall_mem_cons.mpr ⟨rfl, List.forall_mem_singleton.mpr rfl⟩
    · rw [if_neg dotted]
      by_cases sigma : (c.toNat == 0x3A3) = true
      · rw [if_pos sigma]
        split <;> exact List.forall_mem_singleton.mpr rfl
      · rw [if_neg sigma]
        have shifted := ofNat_ne_slash (shift_ne_slash (Nat.le_of_not_lt ascii))
        simpa [isSlash] using shifted

theorem lowerChars_concat (before text : List Char) (c : Char) :
    ∃ front, lowerChars before (text ++ [c]) = front ++ lowerChar (text.reverse ++ before) c [] := by
  induction text generalizing before with
  | nil => exact ⟨[], by simp [lowerChars]⟩
  | cons d rest ih =>
    obtain ⟨front, whole⟩ := ih (d :: before)
    refine ⟨lowerChar before d (rest ++ [c]) ++ front, ?_⟩
    rw [List.cons_append, lowerChars, whole, List.append_assoc, List.reverse_cons, List.append_assoc]
    rfl

theorem lowerChars_bare {text : List Char} (bare : Bare text) : Bare (lowerChars [] text) := by
  refine ⟨?_, ?_⟩
  · cases text with
    | nil => exact nofun
    | cons c rest =>
      have other : c ≠ '/' := by simpa [isSlash] using bare.first c rfl
      obtain ⟨e, more, whole⟩ := List.exists_cons_of_ne_nil (lowerChar_filled [] c rest)
      intro d first
      refine lowerChar_slashless other [] rest d ?_
      rw [lowerChars, whole] at first
      cases first
      rw [whole]
      exact List.mem_cons_self
  · rcases List.eq_nil_or_concat text with rfl | ⟨front, c, rfl⟩
    · exact nofun
    · rw [List.concat_eq_append] at bare ⊢
      have other : c ≠ '/' := by simpa [isSlash] using bare.last c (by simp)
      have filled := lowerChar_filled (front.reverse ++ []) c []
      obtain ⟨lead, whole⟩ := lowerChars_concat [] front c
      intro d last
      refine lowerChar_slashless other (front.reverse ++ []) [] d ?_
      rw [whole, List.getLast?_append, List.getLast?_eq_some_getLast filled] at last
      cases last
      exact List.getLast_mem filled

theorem lowerChars_trimBy (text : List Char) :
    lowerChars [] (trimBy isSlash text) = trimBy isSlash (lowerChars [] text) := by
  obtain ⟨i, j, whole, bare⟩ := trimBy_split text
  have lowered : lowerChars [] text =
      List.replicate i '/' ++ lowerChars [] (trimBy isSlash text) ++ List.replicate j '/' := by
    rw [← lowerChars_slashes, ← whole]
  rw [lowered, trimBy_bare (lowerChars_bare bare)]

theorem lowerChars_eq_nil {text : List Char} : lowerChars [] text = [] ↔ text = [] := by
  cases text with
  | nil => simp [lowerChars]
  | cons c rest => simp [lowerChars, lowerChar_filled]

theorem toLower_toList (s : String) : (toLower s).toList = lowerChars [] s.toList := by
  rw [toLower, String.toList_ofList]

theorem toLower_slash (s t : String) : toLower (s ++ "/" ++ t) = toLower s ++ "/" ++ toLower t := by
  rw [← String.toList_inj]
  simp [toLower_toList, lowerChars_slash]

theorem toLower_root (s : String) : toLower ("/" ++ s) = "/" ++ toLower s := by
  have empty : toLower "" = "" := rfl
  simpa [empty] using toLower_slash "" s

theorem toLower_join (parts : List String) :
    toLower (join "/" parts) = join "/" (parts.map toLower) := by
  unfold join
  induction parts with
  | nil => rfl
  | cons part rest ih =>
    cases rest with
    | nil => rfl
    | cons next more =>
      simp only [List.map_cons, String.intercalate_cons_cons] at ih ⊢
      rw [toLower_slash, ih]

theorem toLower_trimMatches (s : String) :
    toLower (trimMatches isSlash s) = trimMatches isSlash (toLower s) := by
  rw [← String.toList_inj]
  simp [toLower_toList, trimMatches, lowerChars_trimBy]

theorem toLower_eq_empty {s : String} : toLower s = "" ↔ s = "" := by
  rw [← String.toList_inj, toLower_toList, String.toList_empty, lowerChars_eq_nil,
    String.toList_eq_nil_iff]

end CallAtlas.Text
