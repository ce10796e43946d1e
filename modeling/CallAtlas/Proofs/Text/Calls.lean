import CallAtlas.Proofs.Text.Matches

namespace CallAtlas.Text

open Pattern

def callsOf (names : List (List Char)) : Pattern :=
  [.edge, .opens, .oneOf names, .closes, word "("]

-- `rest` is what follows the parenthesis, and `before` the character in front of the text.
def Calls (before : Option Char) (text h rest : List Char) : Prop :=
  ∃ lead, text = lead ++ (h ++ '(' :: rest) ∧ isEdge (lead.getLast?.or before) (h ++ '(' :: rest) = true

def LastCall (known : List Char → Prop) (before : Option Char) (text h : List Char) : Prop :=
  known h ∧ ∃ rest, Calls before text h rest ∧ ∀ h' rest', known h' → Calls before text h' rest' →
    rest.length < rest'.length ∨ rest.length = rest'.length ∧ h'.length ≤ h.length

theorem paren_unique {h h' rest rest' : List Char} (bare : '(' ∉ h) (bare' : '(' ∉ h')
    (same : h ++ '(' :: rest = h' ++ '(' :: rest') : h = h' ∧ rest = rest' := by
  induction h generalizing h' with
  | nil =>
    cases h' with
    | nil => simpa using same
    | cons c cs =>
      obtain ⟨rfl, _⟩ := List.cons.inj same
      exact absurd List.mem_cons_self bare'
  | cons c cs ih =>
    cases h' with
    | nil =>
      obtain ⟨rfl, _⟩ := List.cons.inj same
      exact absurd List.mem_cons_self bare
    | cons d ds =>
      obtain ⟨rfl, further⟩ := List.cons.inj same
      obtain ⟨rfl, rfl⟩ := ih (fun m => bare (List.mem_cons_of_mem _ m))
        (fun m => bare' (List.mem_cons_of_mem _ m)) further
      exact ⟨rfl, rfl⟩

theorem passText_append (w rest : List Char) (before : Option Char) :
    passText w before (w ++ rest) = some (w.getLast?.or before, rest) := by
  induction w generalizing before with
  | nil => rfl
  | cons c cs ih => simp only [List.cons_append, passText, if_pos, ih, getLast?_cons_or]

section Names

variable {names : List (List Char)} {place : Nat} {before : Option Char} {text h rest : List Char} {m : Match}

-- What becomes of one of the words.
def called? (text h : List Char) : Option State :=
  if (h ++ ['(']).isPrefixOf text then
    some { before := some '(', rest := text.drop (h.length + 1), openAt := text, groups := [h] }
  else none

theorem called?_exact {t : State} : called? text h = some t ↔
    ∃ rest, text = h ++ '(' :: rest ∧ t = { before := some '(', rest, openAt := text, groups := [h] } := by
  unfold called?
  constructor
  · intro found
    split at found
    · rename_i fits
      obtain ⟨rest, rfl⟩ := List.isPrefixOf_iff_prefix.mp fits
      cases found
      exact ⟨rest, by simp, by simp⟩
    · cases found
  · rintro ⟨rest, rfl, rfl⟩
    rw [if_pos (List.isPrefixOf_iff_prefix.mpr ⟨rest, by simp⟩)]
    simp

theorem word_paren (w : List Char) :
    (match passText w before text with
      | some (last, left) => run [.closes, word "("] { before := last, rest := left, openAt := text }
      | none => none) = called? text w := by
  unfold called?
  split
  · rename_i last left passed
    obtain ⟨rfl, _⟩ := passText_exact passed
    cases left with
    | nil =>
      have short : ¬ w ++ ['('] <+: w := fun fits => by
        have longer := fits.length_le
        simp only [List.length_append, List.length_singleton] at longer
        omega
      simp [run, word, passText, List.isPrefixOf_iff_prefix, short]
    | cons c rest =>
      by_cases paren : c = '('
      · subst paren
        simp [run, word, passText, List.isPrefixOf_iff_prefix, List.drop_append]
      · simp [run, word, passText, List.isPrefixOf_iff_prefix, Ne.symm paren]
  · rename_i none
    rw [if_neg]
    rw [List.isPrefixOf_iff_prefix]
    rintro ⟨rest, rfl⟩
    rw [List.append_assoc, passText_append] at none
    cases none

theorem callsOf_run : run (callsOf names) { before, rest := text } =
    if isEdge before text then names.findSome? (called? text) else none := by
  rw [← funext (@word_paren before text)]
  rfl

-- No name has a parenthesis, so at one place at most one of them is called.
theorem callsOf_matchHere (bare : ∀ h ∈ names, '(' ∉ h) :
    (callsOf names).matchHere place before text = some m ↔
      ∃ h ∈ names, ∃ rest, text = h ++ '(' :: rest ∧ isEdge before text = true ∧
        m = ⟨place, h.length + 1, [String.ofList h]⟩ := by
  have matched : ∀ h rest : List Char, (h ++ '(' :: rest).length - rest.length = h.length + 1 := by
    intro h rest
    simp only [List.length_append, List.length_cons]
    omega
  rw [matchHere, callsOf_run]
  constructor
  · intro found
    split at found
    · rename_i edge
      obtain ⟨t, first, rfl⟩ := Option.map_eq_some_iff.mp found
      obtain ⟨h, member, here⟩ := List.exists_of_findSome?_eq_some first
      obtain ⟨rest, rfl, rfl⟩ := called?_exact.mp here
      exact ⟨h, member, rest, rfl, edge, by rw [matched]; rfl⟩
    · cases found
  · rintro ⟨h, member, rest, rfl, edge, rfl⟩
    have here : called? (h ++ '(' :: rest) h = some _ := called?_exact.mpr ⟨rest, rfl, rfl⟩
    obtain ⟨t, first⟩ := Option.isSome_iff_exists.mp
      (List.findSome?_isSome_iff.mpr ⟨h, member, Option.isSome_of_eq_some here⟩)
    obtain ⟨w, inside, other⟩ := List.exists_of_findSome?_eq_some first
    obtain ⟨after, whole, rfl⟩ := called?_exact.mp other
    obtain ⟨rfl, rfl⟩ := paren_unique (bare h member) (bare w inside) whole
    rw [if_pos edge, first, Option.map_some, matched]
    rfl

theorem allFrom_skip (p : Pattern) (passed left : List Char) :
    p.allFrom passed.length place before (passed ++ left) =
      p.allFrom 0 (place + passed.length) (passed.getLast?.or before) left := by
  induction passed generalizing place before with
  | nil => rfl
  | cons c rest ih =>
    rw [List.cons_append, List.length_cons, allFrom, ih, getLast?_cons_or, Nat.add_assoc, Nat.add_comm 1]

theorem Calls.shorter (called : Calls before text h rest) : rest.length < text.length := by
  obtain ⟨lead, rfl, _⟩ := called
  simp only [List.length_append, List.length_cons]
  omega

-- A call behind a text in which the name does not occur is the first.
theorem Calls.length_le {lead after : List Char} (called : Calls before text h rest)
    (whole : text = lead ++ (h ++ '(' :: after))
    (clear : ∀ k < lead.length, (h ++ ['(']).isPrefixOf (text.drop k) = false) : rest.length ≤ after.length := by
  obtain ⟨front, cut, _⟩ := called
  have passed : lead.length ≤ front.length := by
    refine Nat.le_of_not_lt fun inside => ?_
    have missing := clear front.length inside
    have here : (h ++ ['(']).isPrefixOf (h ++ '(' :: rest) = true :=
      List.isPrefixOf_iff_prefix.mpr ⟨rest, by simp⟩
    rw [cut, List.drop_left, here] at missing
    cases missing
  have sizes := congrArg List.length (cut.symm.trans whole)
  simp only [List.length_append, List.length_cons] at sizes
  omega

theorem calls_here (edge : isEdge before (h ++ '(' :: rest) = true) :
    Calls before (h ++ '(' :: rest) h rest :=
  ⟨[], rfl, edge⟩

-- Behind a place where no name is called.
theorem calls_cons {c : Char} (elsewhere : ¬ (c :: text = h ++ '(' :: rest ∧ isEdge before (c :: text) = true)) :
    Calls before (c :: text) h rest ↔ Calls (some c) text h rest := by
  constructor
  · rintro ⟨lead, whole, edge⟩
    cases lead with
    | nil =>
      rw [List.nil_append] at whole
      exact absurd ⟨whole, whole ▸ edge⟩ elsewhere
    | cons d lead =>
      obtain ⟨rfl, further⟩ := List.cons.inj whole
      exact ⟨lead, further, getLast?_cons_or c lead before ▸ edge⟩
  · rintro ⟨lead, rfl, edge⟩
    exact ⟨c :: lead, rfl, (getLast?_cons_or c lead before).symm ▸ edge⟩

-- A call either ends at the first parenthesis or stands behind it.
theorem calls_paren {first after : List Char} (bareFirst : '(' ∉ first) (bare : '(' ∉ h)
    (called : Calls before (first ++ '(' :: after) h rest) :
    (rest = after ∧ h <:+ first) ∨ Calls (some '(') after h rest := by
  obtain ⟨lead, whole, edge⟩ := called
  rcases List.append_eq_append_iff.mp whole with ⟨more, rfl, split⟩ | ⟨more, rfl, split⟩
  · cases more with
    | nil =>
      obtain ⟨rfl, rfl⟩ := paren_unique bare (List.not_mem_nil) split.symm
      exact .inl ⟨rfl, List.nil_suffix⟩
    | cons c more =>
      obtain ⟨rfl, rfl⟩ := List.cons.inj split
      refine .inr ⟨more, rfl, ?_⟩
      rwa [List.getLast?_append, getLast?_cons_or, Option.or_assoc, Option.some_or] at edge
  · left
    have bareMore : '(' ∉ more := fun member => bareFirst (List.mem_append_right _ member)
    obtain ⟨rfl, rfl⟩ := paren_unique bare bareMore split
    exact ⟨rfl, List.suffix_append lead h⟩

theorem Calls.behind {first after : List Char} (called : Calls (some '(') after h rest) :
    Calls before (first ++ '(' :: after) h rest := by
  obtain ⟨lead, rfl, edge⟩ := called
  refine ⟨first ++ '(' :: lead, by simp, ?_⟩
  rwa [List.getLast?_append, getLast?_cons_or, Option.or_assoc, Option.some_or]

theorem Calls.not_nil : ¬ Calls before [] h rest := by
  intro called
  exact absurd called.shorter (Nat.not_lt_zero _)

theorem lastCall_congr {known : List Char → Prop} {other : Option Char} {text' : List Char}
    (same : ∀ h rest, known h → (Calls before text h rest ↔ Calls other text' h rest)) :
    LastCall known before text h ↔ LastCall known other text' h := by
  refine and_congr_right fun isKnown => exists_congr fun rest => ?_
  rw [same h rest isKnown]
  refine and_congr_right fun _ => forall_congr' fun h' => forall_congr' fun rest' => ?_
  exact forall_congr' fun isKnown' => by rw [same h' rest' isKnown']

-- A name is called in front of the first parenthesis; it is the last one unless another follows.
theorem lastCall_paren {known : List Char → Prop} {first after : List Char}
    (bare : ∀ h, known h → '(' ∉ h) (isKnown : known first)
    (edge : isEdge before (first ++ '(' :: after) = true) :
    LastCall known before (first ++ '(' :: after) h ↔
      LastCall known (some '(') after h ∨
        h = first ∧ ∀ h' rest', known h' → ¬ Calls (some '(') after h' rest' := by
  constructor
  · rintro ⟨knownHere, rest, called, latest⟩
    rcases calls_paren (bare first isKnown) (bare h knownHere) called with ⟨rfl, part⟩ | later
    · right
      constructor
      · rcases latest first rest isKnown (calls_here edge) with earlier | ⟨_, longest⟩
        · exact absurd earlier (Nat.lt_irrefl _)
        · exact part.eq_of_length_le longest
      · intro h' rest' isKnown' called'
        have shorter := called'.shorter
        rcases latest h' rest' isKnown' called'.behind with earlier | ⟨together, _⟩ <;> omega
    · exact .inl ⟨knownHere, rest, later, fun h' rest' isKnown' called' =>
        latest h' rest' isKnown' called'.behind⟩
  · rintro (⟨knownHere, rest, called, latest⟩ | ⟨rfl, none⟩)
    · refine ⟨knownHere, rest, called.behind, ?_⟩
      intro h' rest' isKnown' called'
      rcases calls_paren (bare first isKnown) (bare h' isKnown') called' with ⟨rfl, _⟩ | later
      · exact .inl called.shorter
      · exact latest h' rest' isKnown' later
    · refine ⟨isKnown, after, calls_here edge, ?_⟩
      intro h' rest' isKnown' called'
      rcases calls_paren (bare h isKnown) (bare h' isKnown') called' with ⟨rfl, part⟩ | later
      · exact .inr ⟨rfl, part.length_le⟩
      · exact absurd later (none h' rest' isKnown')

-- After a match the search goes on behind its parenthesis.
theorem callsOf_further {c : Char} (bare : ∀ h ∈ names, '(' ∉ h)
    (here : (callsOf names).matchHere place before (c :: text) = some m) :
    ∃ first ∈ names, ∃ after, c :: text = first ++ '(' :: after ∧ isEdge before (c :: text) = true ∧
      m.group 0 = String.ofList first ∧ ∃ place', (callsOf names).allFrom 0 place before (c :: text) =
        m :: (callsOf names).allFrom 0 place' (some '(') after := by
  obtain ⟨first, member, after, whole, edge, rfl⟩ := (callsOf_matchHere bare).mp here
  have behind : ∃ passed, text = passed ++ after ∧ passed.length = first.length ∧
      passed.getLast?.or (some c) = some '(' := by
    cases first with
    | nil =>
      obtain ⟨rfl, rfl⟩ := List.cons.inj whole
      exact ⟨[], rfl, rfl, rfl⟩
    | cons d first =>
      obtain ⟨rfl, rfl⟩ := List.cons.inj whole
      exact ⟨first ++ ['('], by simp, by simp, by simp⟩
  obtain ⟨passed, rfl, long, paren⟩ := behind
  refine ⟨first, member, after, whole, edge, rfl, place + 1 + passed.length, ?_⟩
  rw [allFrom, here, ← paren, ← allFrom_skip, long]
  rfl

-- The last match is the last call, and there is none if nothing is called. By induction on the
-- length of the text.
theorem callsOf_last (bare : ∀ h ∈ names, '(' ∉ h) (text : List Char) (place : Nat)
    (before : Option Char) :
    (∀ h, LastCall (· ∈ names) before text h ↔
      ∃ m, ((callsOf names).allFrom 0 place before text).getLast? = some m ∧
        m.group 0 = String.ofList h) ∧
    ((callsOf names).allFrom 0 place before text = [] →
      ∀ h rest, h ∈ names → ¬ Calls before text h rest) := by
  induction size : text.length using Nat.strongRecOn generalizing text place before with
  | ind n ih =>
  subst size
  cases text with
  | nil =>
    refine ⟨fun h => ⟨fun last => ?_, fun last => ?_⟩, fun _ h rest _ => Calls.not_nil⟩
    · obtain ⟨_, rest, called, _⟩ := last
      exact absurd called Calls.not_nil
    · obtain ⟨m, found, _⟩ := last
      cases found
  | cons c text =>
    cases here : (callsOf names).matchHere place before (c :: text) with
    | none =>
      have elsewhere : ∀ h rest, h ∈ names → (Calls before (c :: text) h rest ↔ Calls (some c) text h rest) := by
        intro h rest member
        refine calls_cons fun ⟨whole, edge⟩ => ?_
        cases here.symm.trans ((callsOf_matchHere bare).mpr ⟨h, member, rest, whole, edge, rfl⟩)
      obtain ⟨last, nothing⟩ := ih text.length (Nat.lt_succ_self _) text (place + 1) (some c) rfl
      rw [allFrom, here]
      refine ⟨fun h => (lastCall_congr elsewhere).trans (last h), fun empty h rest member => ?_⟩
      rw [elsewhere h rest member]
      exact nothing empty h rest member
    | some m =>
      obtain ⟨first, member, after, whole, edge, group, place', all⟩ := callsOf_further bare here
      have shorter : after.length < (c :: text).length := by
        rw [whole]
        exact (calls_here (whole ▸ edge)).shorter
      obtain ⟨last, nothing⟩ := ih after.length shorter after place' (some '(') rfl
      rw [all]
      refine ⟨fun h => ?_, fun empty => absurd empty (List.cons_ne_nil _ _)⟩
      rw [whole, lastCall_paren bare member (whole ▸ edge), last h]
      cases found : (callsOf names).allFrom 0 place' (some '(') after with
      | nil =>
        have only : ∀ h' rest', h' ∈ names → ¬ Calls (some '(') after h' rest' := nothing found
        simp only [List.getLast?_nil, List.getLast?_singleton, Option.some.injEq, exists_eq_left', reduceCtorEq,
          false_and, exists_false, false_or]
        rw [group]
        exact ⟨fun both => both.1 ▸ rfl, fun same => ⟨(String.ofList_injective same).symm, only⟩⟩
      | cons x xs =>
        rw [List.getLast?_cons_cons, ← found]
        refine or_iff_left fun both => ?_
        obtain ⟨m', latest⟩ := Option.isSome_iff_exists.mp (List.getLast?_isSome.mpr (List.cons_ne_nil x xs))
        obtain ⟨isKnown, rest, called, _⟩ :=
          (last (m'.group 0).toList).mpr ⟨m', found ▸ latest, String.ofList_toList.symm⟩
        exact both.2 _ rest isKnown called

theorem callsOf_exists (bare : ∀ h ∈ names, '(' ∉ h) (member : h ∈ names) (called : Calls before text h rest) :
    ∃ h, LastCall (· ∈ names) before text h := by
  obtain ⟨last, nothing⟩ := callsOf_last bare text 0 before
  cases found : ((callsOf names).allFrom 0 0 before text).getLast? with
  | none => exact absurd called (nothing (List.getLast?_eq_none_iff.mp found) h rest member)
  | some m => exact ⟨(m.group 0).toList, (last _).mpr ⟨m, found, String.ofList_toList.symm⟩⟩

end Names

end CallAtlas.Text
