import CallAtlas.Proofs.Text.Calls

namespace CallAtlas.Text.Pattern

theorem run_goesOn {step : Step} {steps : List Step} {s middle : State} (passes : Passes step s middle)
    (goesOn : (run steps middle).isSome = true) : (run (step :: steps) s).isSome = true := by
  cases passes with
  | one fits here => simpa only [run, here, fits, if_true] using goesOn
  | many fits here =>
    simp only [run, here]
    exact manyThen_finds fits goesOn
  | @maybeTaken _ c _ rest fits here =>
    simp only [run, here, fits, if_true]
    split
    · rfl
    · rename_i stuck
      rw [stuck] at goesOn
      cases goesOn
  | maybeLeft =>
    simp only [run]
    split
    · exact goesOn
    · split
      · split
        · rfl
        · exact goesOn
      · exact goesOn
  | text here => simpa only [run, here, passText_append] using goesOn
  | @oneOf _ w _ _ member here =>
    rw [run, List.findSome?_isSome_iff]
    refine ⟨w, member, ?_⟩
    simpa only [here, passText_append] using goesOn
  | by_ here => simpa only [run, here] using goesOn
  | edge here => simpa only [run, here, if_true] using goesOn
  | start here => simpa only [run, here, Option.isNone_none, if_true] using goesOn
  | finish here => simpa only [run, here, List.isEmpty_nil, if_true] using goesOn
  | opens => exact goesOn
  | closes => exact goesOn

-- What a text has to be like for the steps to pass, whatever they keep.
def Passable : List Step → Option Char → List Char → Prop
  | [], _, _ => True
  | .one p :: steps, _, text => ∃ c after, text = c :: after ∧ p c = true ∧ Passable steps (some c) after
  | .many p :: steps, before, text =>
    ∃ taken after, text = taken ++ after ∧ taken.all p = true ∧ Passable steps (taken.getLast?.or before) after
  | .maybe p :: steps, before, text =>
    Passable steps before text ∨ ∃ c after, text = c :: after ∧ p c = true ∧ Passable steps (some c) after
  | .text w :: steps, before, text => ∃ after, text = w ++ after ∧ Passable steps (w.getLast?.or before) after
  | .oneOf words :: steps, before, text =>
    ∃ w ∈ words, ∃ after, text = w ++ after ∧ Passable steps (w.getLast?.or before) after
  | .by_ recognise :: steps, before, text =>
    ∃ after, recognise text = some after ∧
      Passable steps ((text.take (text.length - after.length)).getLast?.or before) after
  | .edge :: steps, before, text => isEdge before text = true ∧ Passable steps before text
  | .start :: steps, before, text => before = none ∧ Passable steps before text
  | .finish :: steps, before, text => text = [] ∧ Passable steps before text
  | .opens :: steps, before, text => Passable steps before text
  | .closes :: steps, before, text => Passable steps before text

theorem passable_of_passes {step : Step} {steps : List Step} {s middle : State} (passes : Passes step s middle)
    (later : Passable steps middle.before middle.rest) : Passable (step :: steps) s.before s.rest := by
  cases passes with
  | one fits here => exact ⟨_, _, here, fits, later⟩
  | many fits here => exact ⟨_, _, here, fits, later⟩
  | maybeTaken fits here => exact .inr ⟨_, _, here, fits, later⟩
  | maybeLeft => exact .inl later
  | text here => exact ⟨_, here, later⟩
  | oneOf member here => exact ⟨_, member, _, here, later⟩
  | by_ here => exact ⟨_, here, later⟩
  | edge here => exact ⟨here, later⟩
  | start here => exact ⟨here, later⟩
  | finish here => exact ⟨here, later⟩
  | opens => exact later
  | closes => exact later

theorem passes_of_passable {step : Step} {steps : List Step} {s : State}
    (passable : Passable (step :: steps) s.before s.rest) :
    ∃ middle, Passes step s middle ∧ Passable steps middle.before middle.rest := by
  cases step with
  | one p =>
    obtain ⟨c, after, here, fits, later⟩ := passable
    exact ⟨_, .one fits here, later⟩
  | many p =>
    obtain ⟨taken, after, here, fits, later⟩ := passable
    exact ⟨_, .many fits here, later⟩
  | maybe p =>
    rcases passable with later | ⟨c, after, here, fits, later⟩
    · exact ⟨_, .maybeLeft, later⟩
    · exact ⟨_, .maybeTaken fits here, later⟩
  | text w =>
    obtain ⟨after, here, later⟩ := passable
    exact ⟨_, .text here, later⟩
  | oneOf words =>
    obtain ⟨w, member, after, here, later⟩ := passable
    exact ⟨_, .oneOf member here, later⟩
  | by_ recognise =>
    obtain ⟨after, here, later⟩ := passable
    exact ⟨_, .by_ here, later⟩
  | edge => exact ⟨_, .edge passable.1, passable.2⟩
  | start => exact ⟨_, .start passable.1, passable.2⟩
  | finish => exact ⟨_, .finish passable.1, passable.2⟩
  | opens => exact ⟨_, .opens, passable⟩
  | closes => exact ⟨_, .closes, passable⟩

theorem run_isSome {steps : List Step} {s : State} :
    (run steps s).isSome = true ↔ Passable steps s.before s.rest := by
  induction steps generalizing s with
  | nil => exact iff_of_true rfl trivial
  | cons step steps ih =>
    constructor
    · intro found
      obtain ⟨t, ran⟩ := Option.isSome_iff_exists.mp found
      obtain ⟨middle, passes, goesOn⟩ := run_cons ran
      exact passable_of_passes passes (ih.mp (Option.isSome_of_eq_some goesOn))
    · intro passable
      obtain ⟨middle, passes, later⟩ := passes_of_passable passable
      exact run_goesOn passes (ih.mpr later)

-- Something stands in a text behind its beginning `lead`.
def StandsAt (here : Option Char → List Char → Prop) (text lead : List Char) : Prop :=
  ∃ rest, text = lead ++ rest ∧ here lead.getLast? rest

structure FirstAt (here : Option Char → List Char → Prop) (text lead : List Char) : Prop where
  stands : StandsAt here text lead
  first : ∀ other, StandsAt here text other → lead.length ≤ other.length

section First

variable {here : Option Char → List Char → Prop} {p : Pattern} {place : Nat} {before : Option Char}
  {text rest lead : List Char} {m : Match}

theorem FirstAt.unique {other : List Char} (one : FirstAt here text lead) (two : FirstAt here text other) :
    lead = other := by
  obtain ⟨rest, whole, _⟩ := one.stands
  obtain ⟨rest', whole', _⟩ := two.stands
  have size : lead.length = other.length := Nat.le_antisymm (one.first _ two.stands) (two.first _ one.stands)
  exact (List.append_inj (whole.symm.trans whole') size).1

theorem matchHere_none : p.matchHere place before rest = none ↔ ¬ (run p { before, rest }).isSome = true := by
  rw [matchHere, Option.map_eq_none_iff, Bool.not_eq_true, Option.isSome_eq_false_iff, Option.isNone_iff_eq_none]

theorem matchHere_isSome (place : Nat) : (p.matchHere place before rest).isSome = (run p { before, rest }).isSome := by
  rw [matchHere, Option.isSome_map]

theorem matchHere_lead (found : p.matchHere place before rest = some m) : m.lead = place := by
  obtain ⟨_, _, rfl⟩ := Option.map_eq_some_iff.mp found
  rfl

theorem firstFrom_exact : p.firstFrom place before text = some m ↔
    ∃ passed rest, text = passed ++ rest ∧
      p.matchHere (place + passed.length) (passed.getLast?.or before) rest = some m ∧
      ∀ earlier c more, passed = earlier ++ c :: more → ∀ place,
        p.matchHere place (earlier.getLast?.or before) (c :: (more ++ rest)) = none := by
  constructor
  · intro found
    induction text generalizing place before with
    | nil => exact ⟨[], [], rfl, found, by simp⟩
    | cons c text ih =>
      simp only [firstFrom] at found
      split at found
      · rename_i here
        cases found
        exact ⟨[], c :: text, rfl, here, by simp⟩
      · rename_i none
        obtain ⟨passed, rest, rfl, here, first⟩ := ih found
        refine ⟨c :: passed, rest, rfl, ?_, ?_⟩
        · rwa [List.length_cons, Nat.add_comm passed.length, ← Nat.add_assoc, getLast?_cons_or]
        · intro earlier d more split place
          cases earlier with
          | nil =>
            obtain ⟨rfl, rfl⟩ := List.cons.inj split
            exact matchHere_none.mpr (matchHere_none.mp none)
          | cons e earlier =>
            obtain ⟨rfl, further⟩ := List.cons.inj split
            rw [getLast?_cons_or]
            exact first earlier d more further place
  · rintro ⟨passed, rest, rfl, here, first⟩
    exact firstFrom_first here first

variable (exact : ∀ before rest, (run p { before, rest }).isSome = true ↔ here before rest)

include exact

theorem find?_some {text : String} : p.find? text = some m ↔
    ∃ lead rest, text.toList = lead ++ rest ∧ FirstAt here text.toList lead ∧
      p.matchHere lead.length lead.getLast? rest = some m := by
  rw [find?, firstFrom_exact]
  simp only [Nat.zero_add, Option.or_none]
  constructor
  · rintro ⟨lead, rest, whole, found, first⟩
    have stands : here lead.getLast? rest := by
      rw [← exact, ← matchHere_isSome lead.length, found]
      rfl
    refine ⟨lead, rest, whole, ⟨⟨rest, whole, stands⟩, ?_⟩, found⟩
    rintro other ⟨rest', whole', stands'⟩
    -- A shorter beginning ends inside this one.
    refine Nat.le_of_not_lt fun shorter => ?_
    obtain ⟨between, rfl, rfl⟩ | ⟨between, rfl, _⟩ := List.append_eq_append_iff.mp (whole'.symm.trans whole)
    · cases between with
      | nil => simp at shorter
      | cons c more =>
        exact matchHere_none.mp (first other c more rfl 0) ((exact _ _).mpr stands')
    · rw [List.length_append] at shorter
      omega
  · rintro ⟨lead, rest, whole, first, found⟩
    refine ⟨lead, rest, whole, found, ?_⟩
    rintro earlier c more rfl place
    rw [matchHere_none, exact]
    intro stands
    have longer := first.first earlier ⟨c :: (more ++ rest), by simpa using whole, stands⟩
    rw [List.length_append, List.length_cons] at longer
    omega

theorem find?_at {text : String} (first : FirstAt here text.toList lead) :
    ∃ m rest, text.toList = lead ++ rest ∧ p.find? text = some m ∧
      p.matchHere lead.length lead.getLast? rest = some m := by
  obtain ⟨rest, whole, stands⟩ := first.stands
  have runs := (exact _ _).mpr stands
  rw [← matchHere_isSome lead.length] at runs
  obtain ⟨m, found⟩ := Option.isSome_iff_exists.mp runs
  exact ⟨m, rest, whole, (find?_some exact).mpr ⟨lead, rest, whole, first, found⟩, found⟩

theorem find?_none {text : String} : p.find? text = none ↔ ∀ lead, ¬ StandsAt here text.toList lead := by
  constructor
  · rintro none lead ⟨rest, whole, stands⟩
    have found : (p.firstFrom 0 .none (lead ++ rest)).isSome = true := by
      apply firstFrom_isSome
      intro place
      rw [matchHere_isSome, exact, Option.or_none]
      exact stands
    rw [find?, whole] at none
    rw [none] at found
    cases found
  · intro nowhere
    cases found : p.find? text with
    | none => rfl
    | some m =>
      obtain ⟨lead, _, _, first, _⟩ := (find?_some exact).mp found
      exact absurd first.stands (nowhere lead)

end First

end CallAtlas.Text.Pattern
