import CallAtlas.Text.Pattern

namespace CallAtlas.Text.Pattern

-- All that a step can do. Which of several possible passages is taken depends on the steps after it,
-- so nothing here says that the longest repetition or the first word is chosen.
inductive Passes : Step → State → State → Prop where
  | one (fits : p c = true) (here : s.rest = c :: rest) :
      Passes (.one p) s { s with before := some c, rest }
  | many (fits : taken.all p = true) (here : s.rest = taken ++ rest) :
      Passes (.many p) s { s with before := taken.getLast?.or s.before, rest }
  | maybeTaken (fits : p c = true) (here : s.rest = c :: rest) :
      Passes (.maybe p) s { s with before := some c, rest }
  | maybeLeft : Passes (.maybe p) s s
  | text (here : s.rest = w ++ rest) :
      Passes (.text w) s { s with before := w.getLast?.or s.before, rest }
  | oneOf (member : w ∈ words) (here : s.rest = w ++ rest) :
      Passes (.oneOf words) s { s with before := w.getLast?.or s.before, rest }
  | by_ (here : recognise s.rest = some rest) :
      Passes (.by_ recognise) s
        { s with before := (s.rest.take (s.rest.length - rest.length)).getLast?.or s.before, rest }
  | edge (here : isEdge s.before s.rest = true) : Passes .edge s s
  | start (here : s.before = none) : Passes .start s s
  | finish (here : s.rest = []) : Passes .finish s s
  | opens : Passes .opens s { s with openAt := s.rest }
  | closes : Passes .closes s
      { s with groups := s.openAt.take (s.openAt.length - s.rest.length) :: s.groups }

inductive PassesAll : List Step → State → State → Prop where
  | nil : PassesAll [] s s
  | cons : Passes step s middle → PassesAll steps middle t → PassesAll (step :: steps) s t

theorem getLast?_cons_or (c : Char) (cs : List Char) (before : Option Char) :
    ((c :: cs).getLast?).or before = (cs.getLast?).or (some c) := by
  cases cs with
  | nil => rfl
  | cons d ds => rw [List.getLast?_cons_cons, List.getLast?_cons]; rfl

theorem passText_exact {w rest left : List Char} {before last : Option Char}
    (passed : passText w before rest = some (last, left)) :
    rest = w ++ left ∧ last = w.getLast?.or before := by
  induction w generalizing before rest with
  | nil => cases passed; exact ⟨rfl, rfl⟩
  | cons p ps ih =>
    cases rest with
    | nil => cases passed
    | cons c rest =>
      simp only [passText] at passed
      split at passed
      · rename_i same
        obtain ⟨here, last⟩ := ih passed
        exact ⟨by rw [here, same]; rfl, by rw [last, same, getLast?_cons_or]⟩
      · cases passed

theorem inLine_iff {text : List Char} : text.all notNewline = true ↔ '\n' ∉ text := by
  simp only [List.all_eq_true, notNewline, bne_iff_ne]
  exact ⟨fun each member => each _ member rfl, fun none c member same => none (same ▸ member)⟩

theorem manyThen_finds {p : Char → Bool} {next : Option Char → List Char → Option State}
    {before : Option Char} {taken left : List Char} (fits : taken.all p = true)
    (goesOn : (next (taken.getLast?.or before) left).isSome = true) :
    (manyThen p next before (taken ++ left)).isSome = true := by
  induction taken generalizing before with
  | nil =>
    cases left with
    | nil => exact goesOn
    | cons c left =>
      simp only [List.nil_append, manyThen]
      split
      · split
        · rfl
        · exact goesOn
      · exact goesOn
  | cons c taken ih =>
    obtain ⟨first, others⟩ := Bool.and_eq_true_iff.mp (List.all_cons ▸ fits)
    rw [getLast?_cons_or] at goesOn
    obtain ⟨t, further⟩ := Option.isSome_iff_exists.mp (ih others goesOn)
    simp [manyThen, first, further]

-- Of all ways to pass the characters of a class and go on, the longest is taken.
theorem manyThen_longest {p : Char → Bool} {next : Option Char → List Char → Option State}
    {before : Option Char} {rest : List Char} {t : State}
    (found : manyThen p next before rest = some t) :
    ∃ taken left, rest = taken ++ left ∧ taken.all p = true ∧
      next (taken.getLast?.or before) left = some t ∧
      ∀ longer after, rest = longer ++ after → longer.all p = true →
        (next (longer.getLast?.or before) after).isSome = true → longer.length ≤ taken.length := by
  induction rest generalizing before with
  | nil =>
    refine ⟨[], [], rfl, rfl, found, ?_⟩
    intro longer after whole _ _
    simp [(List.append_eq_nil_iff.mp whole.symm).1]
  | cons c rest ih =>
    simp only [manyThen] at found
    split at found
    · rename_i fits
      split at found
      · rename_i further
        cases Option.some.inj found
        obtain ⟨taken, left, here, all, goesOn, last⟩ := ih further
        refine ⟨c :: taken, left, by rw [here]; rfl, by simp [fits, all], by rwa [getLast?_cons_or], ?_⟩
        intro longer after whole fitsAll ends
        cases longer with
        | nil => exact Nat.zero_le _
        | cons d longer =>
          obtain ⟨rfl, further⟩ := List.cons.inj whole
          rw [getLast?_cons_or] at ends
          exact Nat.succ_le_succ (last longer after further (Bool.and_eq_true_iff.mp fitsAll).2 ends)
      · rename_i none
        refine ⟨[], c :: rest, rfl, rfl, found, ?_⟩
        intro longer after whole fitsAll ends
        cases longer with
        | nil => exact Nat.le_refl _
        | cons d longer =>
          obtain ⟨rfl, further⟩ := List.cons.inj whole
          rw [getLast?_cons_or] at ends
          have finds := manyThen_finds (Bool.and_eq_true_iff.mp fitsAll).2 ends
          rw [show longer ++ after = rest from further.symm, none] at finds
          cases finds
    · rename_i unfit
      refine ⟨[], c :: rest, rfl, rfl, found, ?_⟩
      intro longer after whole fitsAll _
      cases longer with
      | nil => exact Nat.le_refl _
      | cons d longer =>
        obtain ⟨rfl, _⟩ := List.cons.inj whole
        exact absurd (Bool.and_eq_true_iff.mp fitsAll).1 unfit

theorem manyThen_some {p : Char → Bool} {next : Option Char → List Char → Option State}
    {before : Option Char} {rest : List Char} {t : State}
    (found : manyThen p next before rest = some t) :
    ∃ taken left, rest = taken ++ left ∧ taken.all p = true ∧
      next (taken.getLast?.or before) left = some t := by
  obtain ⟨taken, left, here, all, goesOn, _⟩ := manyThen_longest found
  exact ⟨taken, left, here, all, goesOn⟩

theorem run_cons {step : Step} {steps : List Step} {s t : State}
    (found : run (step :: steps) s = some t) :
    ∃ middle, Passes step s middle ∧ run steps middle = some t := by
  cases step with
  | one p =>
    simp only [run] at found
    split at found
    · cases found
    · rename_i c rest here
      split at found
      · rename_i fits; exact ⟨_, .one fits here, found⟩
      · cases found
  | many p =>
    obtain ⟨taken, left, here, all, goesOn⟩ := manyThen_some found
    exact ⟨_, .many all here, goesOn⟩
  | maybe p =>
    simp only [run] at found
    split at found
    · exact ⟨_, .maybeLeft, found⟩
    · rename_i c rest here
      split at found
      · rename_i fits
        split at found
        · rename_i further
          cases Option.some.inj found
          exact ⟨_, .maybeTaken fits here, further⟩
        · exact ⟨_, .maybeLeft, found⟩
      · exact ⟨_, .maybeLeft, found⟩
  | text w =>
    simp only [run] at found
    split at found
    · rename_i passed
      obtain ⟨here, last⟩ := passText_exact passed
      exact ⟨_, .text here, last ▸ found⟩
    · cases found
  | oneOf words =>
    obtain ⟨w, member, found⟩ := List.exists_of_findSome?_eq_some found
    split at found
    · rename_i passed
      obtain ⟨here, last⟩ := passText_exact passed
      exact ⟨_, .oneOf member here, last ▸ found⟩
    · cases found
  | by_ recognise =>
    simp only [run] at found
    split at found
    · rename_i here; exact ⟨_, .by_ here, found⟩
    · cases found
  | edge =>
    simp only [run] at found
    split at found
    · rename_i here; exact ⟨_, .edge here, found⟩
    · cases found
  | start =>
    simp only [run] at found
    split at found
    · rename_i here; exact ⟨_, .start (Option.isNone_iff_eq_none.mp here), found⟩
    · cases found
  | finish =>
    simp only [run] at found
    split at found
    · rename_i here; exact ⟨_, .finish (List.isEmpty_iff.mp here), found⟩
    · cases found
  | opens => exact ⟨_, .opens, found⟩
  | closes => exact ⟨_, .closes, found⟩

theorem run_cons_text {w : List Char} {steps : List Step} {s t : State} (found : run (.text w :: steps) s = some t) :
    ∃ rest before, s.rest = w ++ rest ∧ run steps { s with before, rest } = some t := by
  obtain ⟨_, passes, goesOn⟩ := run_cons found
  cases passes with
  | text here => exact ⟨_, _, here, goesOn⟩

theorem run_cons_many {p : Char → Bool} {steps : List Step} {s t : State} (found : run (.many p :: steps) s = some t) :
    ∃ taken rest before, s.rest = taken ++ rest ∧ taken.all p = true ∧
      run steps { s with before, rest } = some t := by
  obtain ⟨_, passes, goesOn⟩ := run_cons found
  cases passes with
  | many fits here => exact ⟨_, _, _, here, fits, goesOn⟩

theorem run_append {first second : List Step} {s t : State}
    (found : run (first ++ second) s = some t) :
    ∃ middle, PassesAll first s middle ∧ run second middle = some t := by
  induction first generalizing s with
  | nil => exact ⟨s, .nil, found⟩
  | cons step steps ih =>
    obtain ⟨next, passes, goesOn⟩ := run_cons found
    obtain ⟨middle, all, last⟩ := ih goesOn
    exact ⟨middle, .cons passes all, last⟩

theorem run_exact {steps : List Step} {s t : State} (found : run steps s = some t) :
    PassesAll steps s t := by
  obtain ⟨middle, all, last⟩ := run_append ((List.append_nil steps).symm ▸ found)
  cases last
  exact all

-- The same for the texts before and after a step, whatever else the states hold.
def Leads : List Step → List Char → List Char → Prop
  | [], text, rest => text = rest
  | .one p :: steps, text, rest => ∃ c after, text = c :: after ∧ p c = true ∧ Leads steps after rest
  | .many p :: steps, text, rest =>
    ∃ taken after, text = taken ++ after ∧ taken.all p = true ∧ Leads steps after rest
  | .maybe p :: steps, text, rest =>
    Leads steps text rest ∨ ∃ c after, text = c :: after ∧ p c = true ∧ Leads steps after rest
  | .text w :: steps, text, rest => ∃ after, text = w ++ after ∧ Leads steps after rest
  | .oneOf words :: steps, text, rest =>
    ∃ w ∈ words, ∃ after, text = w ++ after ∧ Leads steps after rest
  | .by_ recognise :: steps, text, rest => ∃ after, recognise text = some after ∧ Leads steps after rest
  | .edge :: steps, text, rest => Leads steps text rest
  | .start :: steps, text, rest => Leads steps text rest
  | .finish :: steps, text, rest => text = [] ∧ Leads steps text rest
  | .opens :: steps, text, rest => Leads steps text rest
  | .closes :: steps, text, rest => Leads steps text rest

theorem PassesAll.leads {steps : List Step} {s t : State} (all : PassesAll steps s t) :
    Leads steps s.rest t.rest := by
  induction all with
  | nil => rfl
  | cons passes _ ih =>
    cases passes with
    | one fits here => exact ⟨_, _, here, fits, ih⟩
    | many fits here => exact ⟨_, _, here, fits, ih⟩
    | maybeTaken fits here => exact .inr ⟨_, _, here, fits, ih⟩
    | maybeLeft => exact .inl ih
    | text here => exact ⟨_, here, ih⟩
    | oneOf member here => exact ⟨_, member, _, here, ih⟩
    | by_ here => exact ⟨_, here, ih⟩
    | edge _ => exact ih
    | start _ => exact ih
    | finish here => exact ⟨here, ih⟩
    | opens => exact ih
    | closes => exact ih

def closings : List Step → Nat
  | [] => 0
  | .closes :: steps => closings steps + 1
  | _ :: steps => closings steps

theorem PassesAll.groups {steps : List Step} {s t : State} (all : PassesAll steps s t) :
    ∃ closed, t.groups = closed ++ s.groups ∧ closed.length = closings steps := by
  induction all with
  | nil => exact ⟨[], rfl, rfl⟩
  | cons passes _ ih =>
    obtain ⟨closed, added, count⟩ := ih
    cases passes with
    | closes =>
      have groups := added.trans (List.append_cons closed _ _)
      exact ⟨_, groups, by simp [closings, count]⟩
    | _ => exact ⟨closed, added, count⟩

-- A step that passes over nothing but characters of a class.
def Within (p : Char → Bool) : Step → Prop
  | .one q => ∀ c, q c = true → p c = true
  | .many q => ∀ c, q c = true → p c = true
  | .maybe q => ∀ c, q c = true → p c = true
  | .text w => w.all p = true
  | .oneOf words => ∀ w ∈ words, w.all p = true
  | .edge => True
  | .start => True
  | .finish => True
  | .by_ _ => False
  | .opens => False
  | .closes => False

theorem Passes.within {p : Char → Bool} {step : Step} {s t : State} (inside : Within p step)
    (passes : Passes step s t) :
    ∃ taken, s.rest = taken ++ t.rest ∧ taken.all p = true ∧
      t.openAt = s.openAt ∧ t.groups = s.groups := by
  cases passes with
  | one fits here => exact ⟨[_], here, by simp [inside _ fits], rfl, rfl⟩
  | many fits here =>
    refine ⟨_, here, List.all_eq_true.mpr ?_, rfl, rfl⟩
    exact fun c member => inside c (List.all_eq_true.mp fits c member)
  | maybeTaken fits here => exact ⟨[_], here, by simp [inside _ fits], rfl, rfl⟩
  | maybeLeft => exact ⟨[], rfl, rfl, rfl, rfl⟩
  | text here => exact ⟨_, here, inside, rfl, rfl⟩
  | oneOf member here => exact ⟨_, here, inside _ member, rfl, rfl⟩
  | by_ _ => cases inside
  | edge _ => exact ⟨[], rfl, rfl, rfl, rfl⟩
  | start _ => exact ⟨[], rfl, rfl, rfl, rfl⟩
  | finish _ => exact ⟨[], rfl, rfl, rfl, rfl⟩
  | opens => cases inside
  | closes => cases inside

theorem PassesAll.within {p : Char → Bool} {steps : List Step} {s t : State}
    (inside : ∀ step ∈ steps, Within p step) (all : PassesAll steps s t) :
    ∃ taken, s.rest = taken ++ t.rest ∧ taken.all p = true ∧
      t.openAt = s.openAt ∧ t.groups = s.groups := by
  induction all with
  | nil => exact ⟨[], rfl, rfl, rfl, rfl⟩
  | cons passes _ ih =>
    obtain ⟨first, here, fits, opened, kept⟩ := passes.within (inside _ List.mem_cons_self)
    obtain ⟨more, after, fitsMore, openedMore, keptMore⟩ :=
      ih (fun step member => inside step (List.mem_cons_of_mem _ member))
    refine ⟨first ++ more, ?_, ?_, openedMore.trans opened, keptMore.trans kept⟩
    · rw [here, after, List.append_assoc]
    · simp [fits, fitsMore]

-- A match of a pattern, wherever it stands.
def Matched (p : Pattern) (m : Match) : Prop :=
  ∃ place before rest, p.matchHere place before rest = some m

theorem firstFrom_place {p : Pattern} {place : Nat} {before : Option Char} {text : List Char}
    {m : Match} (found : p.firstFrom place before text = some m) :
    ∃ passed rest, text = passed ++ rest ∧
      p.matchHere (place + passed.length) (passed.getLast?.or before) rest = some m := by
  induction text generalizing place before with
  | nil => exact ⟨[], [], rfl, found⟩
  | cons c rest ih =>
    simp only [firstFrom] at found
    split at found
    · rename_i here
      cases Option.some.inj found
      exact ⟨[], c :: rest, rfl, here⟩
    · obtain ⟨passed, rest, rfl, here⟩ := ih found
      refine ⟨c :: passed, rest, rfl, ?_⟩
      rwa [List.length_cons, Nat.add_comm passed.length, ← Nat.add_assoc, getLast?_cons_or]

theorem firstFrom_located {p : Pattern} {place : Nat} {before : Option Char} {text : List Char}
    {m : Match} (found : p.firstFrom place before text = some m) :
    ∃ passed rest place before, text = passed ++ rest ∧ p.matchHere place before rest = some m := by
  obtain ⟨passed, rest, whole, here⟩ := firstFrom_place found
  exact ⟨passed, rest, _, _, whole, here⟩

theorem firstFrom_isSome {p : Pattern} {place : Nat} {before : Option Char} (passed : List Char)
    {rest : List Char} (here : ∀ place, (p.matchHere place (passed.getLast?.or before) rest).isSome = true) :
    (p.firstFrom place before (passed ++ rest)).isSome = true := by
  induction passed generalizing place before with
  | nil =>
    cases rest with
    | nil => exact here place
    | cons c rest =>
      obtain ⟨m, found⟩ := Option.isSome_iff_exists.mp (here place)
      simp only [List.getLast?_nil, Option.none_or] at found
      simp [firstFrom, found]
  | cons c passed ih =>
    rw [List.cons_append, firstFrom]
    split
    · rfl
    · exact ih fun place => getLast?_cons_or c passed before ▸ here place

-- The match at a place is the first one if none begins before it.
theorem firstFrom_first {p : Pattern} {place : Nat} {before : Option Char} {passed rest : List Char}
    {m : Match} (here : p.matchHere (place + passed.length) (passed.getLast?.or before) rest = some m)
    (first : ∀ earlier c more, passed = earlier ++ c :: more → ∀ place,
      p.matchHere place (earlier.getLast?.or before) (c :: (more ++ rest)) = none) :
    p.firstFrom place before (passed ++ rest) = some m := by
  induction passed generalizing place before with
  | nil =>
    cases rest with
    | nil => exact here
    | cons c rest =>
      simp only [List.getLast?_nil, Option.none_or, List.length_nil, Nat.add_zero] at here
      simp [firstFrom, here]
  | cons c passed ih =>
    have none := first [] c passed rfl place
    simp only [List.getLast?_nil, Option.none_or] at none
    rw [List.cons_append, firstFrom, none]
    refine ih ?_ fun earlier d more split place => ?_
    · rwa [getLast?_cons_or, List.length_cons, Nat.add_comm passed.length, ← Nat.add_assoc] at here
    · have later := first (c :: earlier) d more (by rw [split]; rfl) place
      rwa [getLast?_cons_or] at later

theorem find?_matched {p : Pattern} {text : String} {m : Match} (found : p.find? text = some m) :
    p.Matched m := by
  obtain ⟨_, rest, place, before, _, here⟩ := firstFrom_located found
  exact ⟨place, before, rest, here⟩

theorem allFrom_matched {p : Pattern} {skip place : Nat} {before : Option Char} {text : List Char}
    {m : Match} (found : m ∈ p.allFrom skip place before text) : p.Matched m := by
  induction text generalizing skip place before with
  | nil => cases found
  | cons c rest ih =>
    cases skip with
    | succ skip => exact ih found
    | zero =>
      simp only [allFrom] at found
      split at found
      · rename_i here
        rcases List.mem_cons.mp found with rfl | later
        · exact ⟨_, _, _, here⟩
        · exact ih later
      · exact ih found

theorem mem_findAll_matched {p : Pattern} {text : String} {m : Match} (found : m ∈ p.findAll text) :
    p.Matched m := allFrom_matched found

-- The group that `inner` fills is counted by the groups that are closed before it.
theorem group_within {p : Char → Bool} {first inner last : List Step} {m : Match}
    (inside : ∀ step ∈ inner, Within p step)
    (matched : Matched (first ++ (.opens :: (inner ++ (.closes :: last)))) m) :
    (m.group (closings first)).toList.all p = true := by
  obtain ⟨place, before, rest, found⟩ := matched
  obtain ⟨t, ran, rfl⟩ := Option.map_eq_some_iff.mp found
  obtain ⟨s₁, beforeGroup, ran⟩ := run_append ran
  obtain ⟨s₂, opens, ran⟩ := run_cons ran
  cases opens
  obtain ⟨s₃, inGroup, ran⟩ := run_append ran
  obtain ⟨s₄, closes, ran⟩ := run_cons ran
  cases closes
  obtain ⟨closed, added, count⟩ := beforeGroup.groups
  obtain ⟨taken, here, fits, opened, kept⟩ := inGroup.within inside
  obtain ⟨more, addedMore, -⟩ := (run_exact ran).groups
  have group : s₃.openAt.take (s₃.openAt.length - s₃.rest.length) = taken := by
    rw [opened, here]; simp
  simp only [List.append_nil] at added
  simp only [group, kept, added] at addedMore
  simp [Match.group, addedMore, ← count, fits]

end CallAtlas.Text.Pattern
