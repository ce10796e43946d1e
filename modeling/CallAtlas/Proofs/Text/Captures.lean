import CallAtlas.Proofs.Text.Matches
import CallAtlas.Text.Basic

namespace CallAtlas.Text

namespace Pattern

theorem passText_isSome {w rest : List Char} {before : Option Char} :
    (passText w before rest).isSome = true ↔ w <+: rest := by
  induction w generalizing before rest with
  | nil => simp [passText]
  | cons x xs ih =>
    cases rest with
    | nil => simp [passText]
    | cons c rest =>
      rw [passText, List.cons_prefix_cons]
      split
      · rename_i same
        simp [same, ih]
      · rename_i other
        simp [other]

theorem run_word {w : String} {s : State} : (run [word w] s).isSome = true ↔ w.toList <+: s.rest := by
  have passes := @passText_isSome w.toList s.rest s.before
  rw [← passes]
  simp only [word, run]
  cases passText w.toList s.before s.rest <;> simp

end Pattern

-- What is taken from a text when it may end wherever `closes` holds of the rest.
structure Takes (closes : List Char → Prop) (behind text : List Char) : Prop where
  inLine : '\n' ∉ text
  closed : ∃ rest, behind = text ++ rest ∧ closes rest
  last : ∀ longer rest, behind = longer ++ rest → '\n' ∉ longer → closes rest →
    longer.length ≤ text.length

def literalOf (behind : List Char) : List Char := behind.takeWhile (· != '"')

def afterLiteral (behind : List Char) : List Char := (behind.dropWhile (· != '"')).drop 1

-- The line has one more place where the literal might have closed.
def ClosesAgain (closes : List Char → Prop) (after : List Char) : Prop :=
  ∃ skipped rest, after = skipped ++ rest ∧ '\n' ∉ skipped ∧ closes rest

theorem literalOf_unquoted (behind : List Char) : '"' ∉ literalOf behind := by
  intro member
  have fits := List.all_eq_true.mp List.all_takeWhile _ member
  simp at fits

theorem literal_split {literal after : List Char} (unquoted : '"' ∉ literal) :
    literalOf (literal ++ '"' :: after) = literal ∧ afterLiteral (literal ++ '"' :: after) = after := by
  have fits : ∀ c ∈ literal, (c != '"') = true := by
    intro c member
    exact bne_iff_ne.mpr fun quote => unquoted (quote ▸ member)
  constructor
  · rw [literalOf, List.takeWhile_append_of_pos fits]
    simp
  · rw [afterLiteral, List.dropWhile_append_of_pos fits]
    simp

theorem literal_whole {text : List Char} (quoted : '"' ∈ text) :
    text = literalOf text ++ '"' :: afterLiteral text := by
  obtain ⟨literal, after, rfl, unquoted⟩ := List.eq_append_cons_of_mem quoted
  have parts := @literal_split _ after unquoted
  rw [parts.1, parts.2]

theorem literal_append {text : List Char} (quoted : '"' ∈ text) (rest : List Char) :
    literalOf (text ++ rest) = literalOf text ∧ afterLiteral (text ++ rest) = afterLiteral text ++ rest := by
  conv => lhs; lhs; rw [literal_whole quoted, List.append_assoc, List.cons_append]
  conv => rhs; lhs; rw [literal_whole quoted, List.append_assoc, List.cons_append]
  exact literal_split (literalOf_unquoted text)

namespace Takes

variable {closes : List Char → Prop} {behind text : List Char}

theorem quote_follows (opening : ∀ rest, closes rest → rest.head? = some '"') (takes : Takes closes behind text) :
    ∃ rest, behind = text ++ '"' :: rest := by
  obtain ⟨rest, whole, closed⟩ := takes.closed
  obtain ⟨after, rfl⟩ := List.head?_eq_some_iff.mp (opening rest closed)
  exact ⟨after, whole⟩

theorem literal (opening : ∀ rest, closes rest → rest.head? = some '"') (takes : Takes closes behind text)
    (unquoted : '"' ∉ text) : text = literalOf behind := by
  obtain ⟨rest, rfl⟩ := takes.quote_follows opening
  exact (literal_split unquoted).1.symm

theorem again (takes : Takes closes behind text) (quoted : '"' ∈ text) :
    ClosesAgain closes (afterLiteral behind) := by
  obtain ⟨rest, rfl, closed⟩ := takes.closed
  refine ⟨afterLiteral text, rest, (literal_append quoted rest).2, ?_, closed⟩
  intro newline
  apply takes.inLine
  rw [literal_whole quoted]
  exact List.mem_append_right _ (List.mem_cons_of_mem _ newline)

end Takes

namespace Pattern

theorem group_takes {closes : List Char → Prop} (first last : List Step)
    (fits : ∀ s, (run last s).isSome = true ↔ closes s.rest) {place : Nat} {before : Option Char}
    {rest : List Char} {m : Match}
    (found : matchHere (first ++ (.opens :: .many notNewline :: .closes :: last)) place before rest = some m) :
    ∃ behind, Leads first rest behind ∧ Takes closes behind (m.group (closings first)).toList := by
  obtain ⟨t, ran, rfl⟩ := Option.map_eq_some_iff.mp found
  obtain ⟨s, beforeGroup, ran⟩ := run_append ran
  obtain ⟨closed, added, count⟩ := beforeGroup.groups
  refine ⟨s.rest, beforeGroup.leads, ?_⟩
  obtain ⟨taken, left, here, inLine, goesOn, longest⟩ := manyThen_longest ran
  have group : ((Match.group ⟨place, rest.length - t.rest.length, t.groups.reverse.map String.ofList⟩
      (closings first)).toList) = taken := by
    obtain ⟨_, closes, ran⟩ := run_cons goesOn
    cases closes
    obtain ⟨more, addedMore, -⟩ := (run_exact ran).groups
    have whole : s.rest = taken ++ left := here
    simp only [List.append_nil] at added
    simp only [whole, List.length_append, Nat.add_sub_cancel, List.take_left, added] at addedMore
    simp [Match.group, addedMore, ← count]
  rw [group]
  refine ⟨inLine_iff.mp inLine, ⟨left, here, ?_⟩, ?_⟩
  · exact (fits _).mp (Option.isSome_iff_exists.mpr ⟨t, goesOn⟩)
  · intro longer after whole line closes
    refine longest longer after whole (inLine_iff.mpr line) ?_
    exact (fits _).mpr closes

end Pattern

theorem replaceFrom_chars {part replacement text : List Char} {skip : Nat} :
    ∀ c ∈ replaceFrom part replacement skip text, c ∈ replacement ∨ c ∈ text := by
  induction text generalizing skip with
  | nil => cases skip <;> exact nofun
  | cons d rest ih =>
    intro c member
    cases skip with
    | succ skip => exact (ih c member).imp_right (List.mem_cons_of_mem d)
    | zero =>
      rw [replaceFrom] at member
      split at member
      · rcases List.mem_append.mp member with new | later
        · exact .inl new
        · exact (ih c later).imp_right (List.mem_cons_of_mem d)
      · rcases List.mem_cons.mp member with rfl | later
        · exact .inr List.mem_cons_self
        · exact (ih c later).imp_right (List.mem_cons_of_mem d)

-- What is not part of the replaced text stays.
theorem replaceFrom_keeps {x c : Char} {part replacement text : List Char} {skip : Nat}
    (foreign : c ∉ x :: part) (member : c ∈ text.drop skip) :
    c ∈ replaceFrom (x :: part) replacement skip text := by
  induction text generalizing skip with
  | nil => simp at member
  | cons d rest ih =>
    cases skip with
    | succ skip => exact ih member
    | zero =>
      rw [replaceFrom]
      split
      · rename_i here
        obtain ⟨after, whole⟩ := List.isPrefixOf_iff_prefix.mp here
        have later : c ∈ after := by
          rw [List.drop_zero, ← whole] at member
          exact (List.mem_append.mp member).resolve_left foreign
        have behind : part ++ after = rest := (List.cons.inj whole).2
        refine List.mem_append_right _ (ih ?_)
        rwa [List.length_cons, Nat.add_sub_cancel, ← behind, List.drop_left]
      · rcases List.mem_cons.mp member with rfl | later
        · exact List.mem_cons_self
        · exact List.mem_cons_of_mem _ (ih later)

-- A replacement appears as a whole if there is anything to replace.
theorem replaceFrom_fills (part replacement text : List Char) :
    replaceFrom part replacement 0 text = text ∨ ∀ c ∈ replacement, c ∈ replaceFrom part replacement 0 text := by
  induction text with
  | nil => exact .inl rfl
  | cons d rest ih =>
    rw [replaceFrom]
    split
    · exact .inr fun c member => List.mem_append_left _ member
    · exact ih.imp (congrArg (d :: ·)) fun all c member => List.mem_cons_of_mem _ (all c member)

theorem mem_join {sep : String} {parts : List String} {c : Char} (member : c ∈ (join sep parts).toList) :
    c ∈ sep.toList ∨ ∃ part ∈ parts, c ∈ part.toList := by
  unfold join at member
  induction parts with
  | nil => simp at member
  | cons part rest ih =>
    cases rest with
    | nil =>
      rw [String.intercalate_singleton] at member
      exact .inr ⟨part, List.mem_cons_self, member⟩
    | cons next more =>
      rw [String.intercalate_cons_cons, String.toList_append, String.toList_append] at member
      rcases List.mem_append.mp member with first | later
      · rcases List.mem_append.mp first with own | between
        · exact .inr ⟨part, List.mem_cons_self, own⟩
        · exact .inl between
      · rcases ih later with between | ⟨other, inside, own⟩
        · exact .inl between
        · exact .inr ⟨other, List.mem_cons_of_mem _ inside, own⟩

end CallAtlas.Text
