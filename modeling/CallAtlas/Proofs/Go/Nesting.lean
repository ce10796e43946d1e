import CallAtlas.Proofs.Path.Join
import CallAtlas.Proofs.Text.Lower

namespace CallAtlas.Go

open CallAtlas.Text

inductive Mode where
  | code
  | slash
  | comment
  | star
  | quoted (rune : Bool)
  | escaped (rune : Bool)
  | raw
  deriving DecidableEq

-- Where a line of code stands, with the brackets that close what is open there, innermost first.
structure Depth where
  mode : Mode
  closers : List Char
  deriving DecidableEq

def Depth.outside (p : Depth) : Bool :=
  (p.mode == .code || p.mode == .slash) && p.closers.isEmpty

def inCode (closers : List Char) (c : Char) : Option Depth :=
  if c = '(' then some ⟨.code, ')' :: closers⟩
  else if c = '[' then some ⟨.code, ']' :: closers⟩
  else if c = '\x7b' then some ⟨.code, '\x7d' :: closers⟩
  else if c = ')' ∨ c = ']' ∨ c = '\x7d' then
    match closers with
    | [] => none
    | close :: rest => if c = close then some ⟨.code, rest⟩ else none
  else if c = '"' then some ⟨.quoted false, closers⟩
  else if c = '\x27' then some ⟨.quoted true, closers⟩
  else if c = '\x60' then some ⟨.raw, closers⟩
  else if c = '/' then some ⟨.slash, closers⟩
  else some ⟨.code, closers⟩

-- Where it stands behind a character, unless a bracket does not fit or the rest of the line is a comment.
def Depth.next (p : Depth) (c : Char) : Option Depth :=
  match p.mode with
  | .code => inCode p.closers c
  | .slash =>
    if c = '*' then some ⟨.comment, p.closers⟩
    else if c = '/' then none
    else inCode p.closers c
  | .comment => some ⟨if c = '*' then .star else .comment, p.closers⟩
  | .star => some ⟨if c = '/' then .code else if c = '*' then .star else .comment, p.closers⟩
  | .quoted rune =>
    let close := if rune then '\x27' else '"'
    some ⟨if c = '\\' then .escaped rune else if c = close then .code else .quoted rune, p.closers⟩
  | .escaped rune => some ⟨.quoted rune, p.closers⟩
  | .raw => some ⟨if c = '\x60' then .code else .raw, p.closers⟩

def elementsFrom? : Depth → List Char → Option (List (List Char))
  | p, [] => if p.outside then some [[]] else none
  | p, c :: rest =>
    if c = ',' ∧ p.outside then (elementsFrom? ⟨.code, []⟩ rest).map ([] :: ·)
    else
      match p.next c with
      | none => none
      | some q =>
        match elementsFrom? q rest with
        | some (first :: others) => some ((c :: first) :: others)
        | _ => none

-- The elements of a list, if its brackets are balanced and its literals end.
def elements? (text : List Char) : Option (List (List Char)) := elementsFrom? ⟨.code, []⟩ text

def comma (c : Char) : Bool := c == ','

theorem elementsFrom?_nil {p : Depth} {elements : List (List Char)} (split : elementsFrom? p [] = some elements) :
    p.outside = true ∧ elements = [[]] := by
  simp only [elementsFrom?] at split
  split at split
  · exact ⟨‹_›, (Option.some.inj split).symm⟩
  · cases split

theorem elementsFrom?_cons {p : Depth} {c : Char} {rest : List Char} {elements : List (List Char)}
    (split : elementsFrom? p (c :: rest) = some elements) :
    (c = ',' ∧ p.outside = true ∧ ∃ others, elementsFrom? ⟨.code, []⟩ rest = some others ∧
        elements = [] :: others) ∨
      ∃ q first others, p.next c = some q ∧ elementsFrom? q rest = some (first :: others) ∧
        elements = (c :: first) :: others := by
  simp only [elementsFrom?] at split
  split at split
  · rename_i separates
    obtain ⟨others, further, rfl⟩ := Option.map_eq_some_iff.mp split
    exact .inl ⟨separates.1, separates.2, others, further, rfl⟩
  · split at split
    · cases split
    · rename_i q next
      split at split
      · rename_i first others further
        cases split
        exact .inr ⟨q, first, others, next, further, rfl⟩
      · cases split

-- All commas of the list separate or stand in an element.
theorem splitBy_elements {p : Depth} {text : List Char} {elements : List (List Char)}
    (split : elementsFrom? p text = some elements) : splitBy comma text = elements.flatMap (splitBy comma) := by
  induction text generalizing p elements with
  | nil =>
    obtain ⟨_, rfl⟩ := elementsFrom?_nil split
    rfl
  | cons c rest ih =>
    rcases elementsFrom?_cons split with ⟨rfl, _, others, further, rfl⟩ | ⟨q, first, others, _, further, rfl⟩
    · rw [List.flatMap_cons, ← ih further]
      rfl
    · have whole := ih further
      rw [List.flatMap_cons] at whole ⊢
      rw [splitBy, splitBy, whole]
      split
      · rfl
      · cases pieces : splitBy comma first with
        | nil => exact absurd pieces (splitBy_ne_nil first)
        | cons piece more => rfl

theorem first_around {p : Depth} {text first : List Char} {others : List (List Char)}
    (split : elementsFrom? p text = some (first :: others)) :
    ∃ behind, text = first ++ behind ∧ ∀ c, behind.head? = some c → c = ',' := by
  induction text generalizing p first others with
  | nil =>
    cases (elementsFrom?_nil split).2
    exact ⟨[], rfl, nofun⟩
  | cons c rest ih =>
    rcases elementsFrom?_cons split with ⟨rfl, _, _, _, same⟩ | ⟨q, start, more, _, further, same⟩
    · cases same
      exact ⟨',' :: rest, rfl, fun d head => (Option.some.inj head).symm⟩
    · cases same
      obtain ⟨behind, rfl, head⟩ := ih further
      exact ⟨behind, rfl, head⟩

theorem later_around {p : Depth} {text element : List Char} {elements : List (List Char)} {i : Nat}
    (split : elementsFrom? p text = some elements) (found : elements[i + 1]? = some element) :
    ∃ front behind, text = front ++ ',' :: (element ++ behind) ∧ ∀ c, behind.head? = some c → c = ',' := by
  induction text generalizing p elements i with
  | nil =>
    obtain ⟨_, rfl⟩ := elementsFrom?_nil split
    cases found
  | cons c rest ih =>
    rcases elementsFrom?_cons split with ⟨rfl, _, others, further, rfl⟩ | ⟨q, first, others, _, further, rfl⟩
    · cases i with
      | zero =>
        obtain ⟨more, rfl⟩ := List.head?_eq_some_iff.mp (List.head?_eq_getElem?.trans found)
        obtain ⟨behind, rfl, head⟩ := first_around further
        exact ⟨[], behind, rfl, head⟩
      | succ i =>
        obtain ⟨front, behind, rfl, head⟩ := ih further found
        exact ⟨',' :: front, behind, rfl, head⟩
    · obtain ⟨front, behind, rfl, head⟩ := @ih q (first :: others) i further found
      exact ⟨c :: front, behind, rfl, head⟩

-- An element stands between commas or the ends of the list.
theorem element_around {p : Depth} {text element : List Char} {elements : List (List Char)} {i : Nat}
    (split : elementsFrom? p text = some elements) (found : elements[i]? = some element) :
    ∃ front behind, text = front ++ (element ++ behind) ∧ (front = [] ∨ front.getLast? = some ',') ∧
      ∀ c, behind.head? = some c → c = ',' := by
  cases i with
  | zero =>
    obtain ⟨others, rfl⟩ := List.head?_eq_some_iff.mp (List.head?_eq_getElem?.trans found)
    obtain ⟨behind, whole, head⟩ := first_around split
    exact ⟨[], behind, whole, .inl rfl, head⟩
  | succ i =>
    obtain ⟨front, behind, whole, head⟩ := later_around split found
    exact ⟨front ++ [','], behind, by simp [whole], .inr List.getLast?_concat, head⟩

-- A text that leads from one place to one outside all brackets, literals and comments.
def LeadsOut : Depth → List Char → Prop
  | p, [] => p.outside = true
  | p, c :: rest => ∃ q, p.next c = some q ∧ LeadsOut q rest

theorem elementsFrom_leadsOut {p : Depth} {text first : List Char} {others : List (List Char)}
    (split : elementsFrom? p text = some (first :: others)) :
    LeadsOut p first ∧ ∀ element ∈ others, LeadsOut ⟨.code, []⟩ element := by
  induction text generalizing p first others with
  | nil =>
    obtain ⟨outside, same⟩ := elementsFrom?_nil split
    cases same
    exact ⟨outside, nofun⟩
  | cons c rest ih =>
    rcases elementsFrom?_cons split with ⟨_, outside, more, further, same⟩ | ⟨q, start, more, next, further, same⟩
    · cases same
      refine ⟨outside, ?_⟩
      cases others with
      | nil => exact nofun
      | cons second others =>
        obtain ⟨out, later⟩ := ih further
        exact List.forall_mem_cons.mpr ⟨out, later⟩
    · cases same
      obtain ⟨out, later⟩ := ih further
      exact ⟨⟨q, next, out⟩, later⟩

theorem elements_leadsOut {text element : List Char} {elements : List (List Char)}
    (split : elements? text = some elements) (member : element ∈ elements) :
    LeadsOut ⟨.code, []⟩ element := by
  cases elements with
  | nil => cases member
  | cons first others =>
    obtain ⟨out, later⟩ := elementsFrom_leadsOut split
    rcases List.mem_cons.mp member with rfl | member
    · exact out
    · exact later element member

def isSpace (c : Char) : Bool := c == ' '

def isClose (c : Char) : Bool := c == ')'

theorem outside_iff {p : Depth} : p.outside = true ↔ (p.mode = .code ∨ p.mode = .slash) ∧ p.closers = [] := by
  simp [Depth.outside]

theorem next_space {p q : Depth} (next : p.next ' ' = some q) : q.outside = p.outside := by
  obtain ⟨mode, closers⟩ := p
  cases mode with
  | quoted rune =>
    cases rune <;> simp [Depth.next] at next <;> subst next <;> rfl
  | _ =>
    simp [Depth.next, inCode] at next
    subst next
    rfl

theorem inCode_close {closers : List Char} (unopened : ')' ∉ closers) : inCode closers ')' = none := by
  cases closers with
  | nil => rfl
  | cons close rest =>
    have other : ')' ≠ close := fun same => unopened (same ▸ List.mem_cons_self)
    simp [inCode, other]

-- A parenthesis that closes needs one that has been opened.
theorem next_close {p q : Depth} (unopened : ')' ∉ p.closers) (next : p.next ')' = some q) :
    q.outside = false := by
  obtain ⟨mode, closers⟩ := p
  cases mode with
  | code => simp [Depth.next, inCode_close unopened] at next
  | slash => simp [Depth.next, inCode_close unopened] at next
  | quoted rune =>
    cases rune <;> simp [Depth.next] at next <;> subst next <;> rfl
  | _ =>
    simp [Depth.next] at next
    subst next
    rfl

-- What becomes of the open brackets.
theorem inCode_cases {closers : List Char} {q : Depth} {c : Char} (next : inCode closers c = some q) :
    (∃ close, q.closers = close :: closers ∧ (c = '(' ∨ close ≠ ')')) ∨
      closers = c :: q.closers ∨ q.closers = closers := by
  unfold inCode at next
  split at next
  · rename_i opens
    cases next
    exact .inl ⟨')', rfl, .inl opens⟩
  split at next
  · cases next
    exact .inl ⟨']', rfl, .inr (by decide)⟩
  split at next
  · cases next
    exact .inl ⟨'\x7d', rfl, .inr (by decide)⟩
  split at next
  · cases closers with
    | nil => cases next
    | cons close rest =>
      dsimp only at next
      split at next
      · rename_i fits
        cases next
        exact .inr (.inl (by rw [fits]))
      · cases next
  · right
    right
    grind

theorem inCode_closers {closers : List Char} {q : Depth} {c : Char} (other : c ≠ '(')
    (unopened : ')' ∉ closers) (next : inCode closers c = some q) : ')' ∉ q.closers := by
  rcases inCode_cases next with ⟨close, opened, opens | apart⟩ | closed | kept
  · exact absurd opens other
  · rw [opened]
    exact fun member => (List.mem_cons.mp member).elim (fun same => apart same.symm) unopened
  · rw [closed] at unopened
    exact fun member => unopened (List.mem_cons_of_mem c member)
  · rwa [kept]

theorem next_closers {p q : Depth} {c : Char} (other : c ≠ '(') (unopened : ')' ∉ p.closers)
    (next : p.next c = some q) : ')' ∉ q.closers := by
  obtain ⟨mode, closers⟩ := p
  cases mode with
  | code => exact inCode_closers other unopened next
  | slash =>
    simp only [Depth.next] at next
    split at next
    · cases next
      exact unopened
    · split at next
      · cases next
      · exact inCode_closers other unopened next
  | _ =>
    cases next
    exact unopened

theorem leadsOut_start {p : Depth} {text : List Char} (outside : p.outside = true)
    (out : LeadsOut p text) : ∃ q, q.outside = true ∧ LeadsOut q (trimStartBy isSpace text) := by
  induction text generalizing p with
  | nil => exact ⟨p, outside, out⟩
  | cons c rest ih =>
    by_cases space : c = ' '
    · subst space
      obtain ⟨q, next, further⟩ := out
      exact ih ((next_space next).trans outside) further
    · have kept : trimStartBy isSpace (c :: rest) = c :: rest := by simp [trimStartBy, isSpace, space]
      rw [kept]
      exact ⟨p, outside, out⟩

theorem leadsOut_head {p : Depth} {text : List Char} (outside : p.outside = true)
    (out : LeadsOut p text) : text.head? ≠ some ')' := by
  cases text with
  | nil => exact nofun
  | cons c rest =>
    intro same
    obtain rfl : c = ')' := Option.some.inj same
    obtain ⟨q, next, _⟩ := out
    obtain ⟨mode, closers⟩ := p
    obtain ⟨mode | mode, closed⟩ := outside_iff.mp outside <;> dsimp only at mode closed <;>
      simp [mode, closed, Depth.next, inCode] at next

theorem leadsOut_spaces {p : Depth} {text : List Char} (out : LeadsOut p text)
    (spaces : trimEndBy isSpace text = []) : p.outside = true := by
  induction text generalizing p with
  | nil => exact out
  | cons c rest ih =>
    obtain ⟨q, next, further⟩ := out
    rw [trimEndBy] at spaces
    split at spaces
    · rename_i kept
      split at spaces
      · rename_i space
        obtain rfl : c = ' ' := by simpa [isSpace] using space
        exact (next_space next).symm.trans (ih further kept)
      · cases spaces
    · cases spaces

theorem leadsOut_last {p : Depth} {text : List Char} (out : LeadsOut p text) (unopened : ')' ∉ p.closers)
    (plain : '(' ∉ text) : (trimEndBy isSpace text).getLast? ≠ some ')' := by
  induction text generalizing p with
  | nil => exact nofun
  | cons c rest ih =>
    obtain ⟨q, next, further⟩ := out
    have other : c ≠ '(' := fun same => plain (same ▸ List.mem_cons_self)
    have last := ih further (next_closers other unopened next)
      fun member => plain (List.mem_cons_of_mem c member)
    rw [trimEndBy]
    cases kept : trimEndBy isSpace rest with
    | nil =>
      dsimp only
      split
      · intro same
        cases same
      · intro same
        obtain rfl : c = ')' := Option.some.inj same
        have outside := leadsOut_spaces further kept
        rw [next_close unopened next] at outside
        cases outside
    | cons d more =>
      rw [kept] at last
      rwa [List.getLast?_cons_cons]

theorem trimEndBy_prefix (p : Char → Bool) (text : List Char) : trimEndBy p text <+: text := by
  induction text with
  | nil => exact List.prefix_rfl
  | cons c rest ih =>
    rw [trimEndBy]
    split
    · split
      · exact List.nil_prefix
      · exact ⟨rest, rfl⟩
    · exact (List.prefix_cons_inj c).mpr ih

-- So trimming parentheses changes nothing of it.
theorem element_trimmed {text : List Char} (out : LeadsOut ⟨.code, []⟩ text) (plain : '(' ∉ text) :
    trimBy isClose (trimBy isSpace text) = trimBy isSpace text := by
  obtain ⟨q, outside, out⟩ := leadsOut_start rfl out
  have plain : '(' ∉ trimStartBy isSpace text := fun member =>
    plain ((List.dropWhile_sublist isSpace).subset member)
  have unopened : ')' ∉ q.closers := by simp [(outside_iff.mp outside).2]
  have last := leadsOut_last out unopened plain
  have head := leadsOut_head outside out
  obtain ⟨more, whole⟩ := trimEndBy_prefix isSpace (trimStartBy isSpace text)
  unfold trimBy
  cases kept : trimEndBy isSpace (trimStartBy isSpace text) with
  | nil => rfl
  | cons c rest =>
    rw [kept] at whole last
    rw [← whole] at head
    have start : isClose c = false := beq_eq_false_iff_ne.mpr fun same => head (congrArg some same)
    rw [trimStartBy, List.dropWhile_cons_of_neg (by simp [start])]
    exact trimEndBy_bare fun d final => beq_eq_false_iff_ne.mpr fun same => last (same ▸ final)

theorem splitBy_alone {text : List Char} (whole : ',' ∉ text) : splitBy comma text = [text] :=
  splitBy_whole fun c member => beq_eq_false_iff_ne.mpr fun same : c = ',' => whole (same ▸ member)

-- How many commas stand inside the first elements.
def nested (elements : List (List Char)) (i : Nat) : Nat := (elements.take i).flatten.count ','

theorem splitBy_length (text : List Char) : (splitBy comma text).length = text.count ',' + 1 := by
  induction text with
  | nil => rfl
  | cons c rest ih =>
    rw [splitBy]
    split
    · rename_i here
      have same : c = ',' := by simpa [comma] using here
      rw [List.length_cons, ih, same, List.count_cons_self]
    · rename_i other
      have apart : c ≠ ',' := by simpa [comma] using other
      rw [List.count_cons_of_ne apart, ← ih]
      cases pieces : splitBy comma rest with
      | nil => exact absurd pieces (splitBy_ne_nil rest)
      | cons piece more => rfl

theorem first_piece {part : List Char} (whole : ',' ∉ part) (behind : List Char) :
    ∃ piece more, splitBy comma (part ++ behind) = piece :: more ∧ part <+: piece := by
  induction part with
  | nil =>
    obtain ⟨piece, more, pieces⟩ := List.exists_cons_of_ne_nil (splitBy_ne_nil (p := comma) behind)
    exact ⟨piece, more, pieces, List.nil_prefix⟩
  | cons c part ih =>
    obtain ⟨piece, more, pieces, inside⟩ := ih fun member => whole (List.mem_cons_of_mem c member)
    have apart : comma c = false := beq_eq_false_iff_ne.mpr fun same => whole (same ▸ List.mem_cons_self)
    refine ⟨c :: piece, more, ?_, (List.prefix_cons_inj c).mpr inside⟩
    rw [List.cons_append, splitBy, pieces, if_neg (by simp [apart])]

-- A text without commas stands in the piece that the commas in front of it count to.
theorem piece_around {part : List Char} (whole : ',' ∉ part) (front behind : List Char) :
    ∃ piece, (splitBy comma (front ++ (part ++ behind)))[front.count ',']? = some piece ∧
      part <:+: piece := by
  induction front with
  | nil =>
    obtain ⟨piece, more, pieces, inside⟩ := first_piece whole behind
    refine ⟨piece, ?_, inside.isInfix⟩
    rw [List.nil_append, pieces]
    rfl
  | cons c front ih =>
    obtain ⟨piece, place, inside⟩ := ih
    rw [List.cons_append, splitBy]
    by_cases here : c = ','
    · subst here
      exact ⟨piece, by simpa [comma] using place, inside⟩
    · have apart : comma c = false := beq_eq_false_iff_ne.mpr here
      rw [if_neg (by simp [apart]), List.count_cons_of_ne here]
      cases pieces : splitBy comma (front ++ (part ++ behind)) with
      | nil => exact absurd pieces (splitBy_ne_nil _)
      | cons first more =>
        rw [pieces] at place
        cases count : front.count ',' with
        | zero =>
          rw [count] at place
          cases Option.some.inj place
          exact ⟨c :: piece, rfl, inside.trans (List.suffix_cons c piece).isInfix⟩
        | succ n =>
          rw [count] at place
          exact ⟨piece, place, inside⟩

theorem pieces_within {text first : List Char} {others : List (List Char)}
    (pieces : splitBy comma text = first :: others) :
    first <+: text ∧ ∀ piece ∈ others, piece <:+: text := by
  induction text generalizing first others with
  | nil =>
    cases pieces
    exact ⟨List.prefix_rfl, nofun⟩
  | cons c rest ih =>
    rw [splitBy] at pieces
    obtain ⟨start, more, further⟩ := List.exists_cons_of_ne_nil (splitBy_ne_nil (p := comma) rest)
    obtain ⟨front, behind⟩ := ih further
    have longer : ∀ {piece : List Char}, piece <:+: rest → piece <:+: c :: rest :=
      fun inside => inside.trans (List.suffix_cons c rest).isInfix
    rw [further] at pieces
    split at pieces
    · cases pieces
      exact ⟨List.nil_prefix,
        List.forall_mem_cons.mpr ⟨longer front.isInfix, fun piece member => longer (behind piece member)⟩⟩
    · cases pieces
      exact ⟨(List.prefix_cons_inj c).mpr front, fun piece member => longer (behind piece member)⟩

theorem piece_within {text piece : List Char} (member : piece ∈ splitBy comma text) : piece <:+: text := by
  obtain ⟨first, others, pieces⟩ := List.exists_cons_of_ne_nil (splitBy_ne_nil (p := comma) text)
  obtain ⟨front, behind⟩ := pieces_within pieces
  rw [pieces] at member
  rcases List.mem_cons.mp member with rfl | later
  · exact front.isInfix
  · exact behind piece later

theorem pieces_length {elements : List (List Char)} {i : Nat} (within : i ≤ elements.length) :
    ((elements.take i).flatMap (splitBy comma)).length = i + nested elements i := by
  induction elements generalizing i with
  | nil =>
    obtain rfl : i = 0 := Nat.le_zero.mp within
    rfl
  | cons element rest ih =>
    cases i with
    | zero => rfl
    | succ i =>
      have later := ih (Nat.le_of_succ_le_succ within)
      simp only [nested, List.take_succ_cons, List.flatMap_cons, List.length_append, splitBy_length,
        List.flatten_cons, List.count_append] at later ⊢
      omega

-- The piece at the place of an element without commas is this element.
theorem piece_of_element {elements : List (List Char)} {i : Nat} {element : List Char}
    (found : elements[i]? = some element) (whole : ',' ∉ element) :
    (elements.flatMap (splitBy comma))[i + nested elements i]? = some element := by
  obtain ⟨within, rfl⟩ := List.getElem?_eq_some_iff.mp found
  have alone := splitBy_alone whole
  have cut : elements.flatMap (splitBy comma) = (elements.take i).flatMap (splitBy comma) ++
      ([elements[i]] ++ (elements.drop (i + 1)).flatMap (splitBy comma)) := by
    rw [← alone, ← List.flatMap_cons, ← List.flatMap_append, List.getElem_cons_drop, List.take_append_drop]
  rw [cut, ← pieces_length (Nat.le_of_lt within), List.getElem?_append_right (Nat.le_refl _), Nat.sub_self]
  rfl

-- Each piece is a piece of one element.
theorem element_of_piece {elements : List (List Char)} {n : Nat} {piece : List Char}
    (found : (elements.flatMap (splitBy comma))[n]? = some piece) :
    ∃ i element k, elements[i]? = some element ∧ (splitBy comma element)[k]? = some piece ∧
      n = i + nested elements i + k := by
  induction elements generalizing n with
  | nil => cases found
  | cons element rest ih =>
    rw [List.flatMap_cons] at found
    by_cases here : n < (splitBy comma element).length
    · rw [List.getElem?_append_left here] at found
      exact ⟨0, element, n, rfl, found, by simp [nested]⟩
    · rw [List.getElem?_append_right (Nat.le_of_not_lt here)] at found
      obtain ⟨i, other, k, inside, place, count⟩ := ih found
      refine ⟨i + 1, other, k, inside, place, ?_⟩
      rw [splitBy_length] at here count
      simp only [nested, List.take_succ_cons, List.flatten_cons, List.count_append] at count ⊢
      omega

end CallAtlas.Go
