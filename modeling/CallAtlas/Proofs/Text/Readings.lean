import CallAtlas.Proofs.Text.FirstMatch
import CallAtlas.Proofs.Text.Spans

namespace CallAtlas.Text

open Pattern

section Readings

variable {α : Type} {reads : List Char → α → List Char → Prop} {text rest left : List Char} {source : String}
  {a b : α}

-- Only one thing can be read at a place, and no character is read twice.
structure Reading (reads : List Char → α → List Char → Prop) : Prop where
  unique : ∀ {text a b rest left}, reads text a rest → reads text b left → a = b ∧ rest = left
  takes : ∀ {text a rest}, reads text a rest → ∃ c taken, text = c :: (taken ++ rest)

def ReadHere (reads : List Char → α → List Char → Prop) (_ : Option Char) (text : List Char) : Prop :=
  ∃ a rest, reads text a rest

-- What is read at the first place where anything is.
def FirstRead (reads : List Char → α → List Char → Prop) (source : String) (a : α) : Prop :=
  ∃ lead text rest, source.toList = lead ++ text ∧ FirstAt (ReadHere reads) source.toList lead ∧ reads text a rest

-- Where nothing is read, one character is passed over.
inductive ReadsAll (reads : List Char → α → List Char → Prop) : List Char → List α → Prop where
  | nil : ReadsAll reads [] []
  | pass {c : Char} {text : List Char} {as : List α} :
      ¬ ReadHere reads none (c :: text) → ReadsAll reads text as → ReadsAll reads (c :: text) as
  | read {text rest : List Char} {a : α} {as : List α} :
      reads text a rest → ReadsAll reads rest as → ReadsAll reads text (a :: as)

theorem FirstRead.unique (reading : Reading reads) (one : FirstRead reads source a) (two : FirstRead reads source b) :
    a = b := by
  obtain ⟨lead, text, rest, whole, first, read⟩ := one
  obtain ⟨lead', text', rest', whole', first', read'⟩ := two
  obtain rfl := first.unique first'
  cases List.append_cancel_left (whole.symm.trans whole')
  exact (reading.unique read read').1

theorem ReadsAll.unique (reading : Reading reads) {as bs : List α} (one : ReadsAll reads text as)
    (two : ReadsAll reads text bs) : as = bs := by
  induction one generalizing bs with
  | nil =>
    cases two with
    | nil => rfl
    | read read _ =>
      obtain ⟨c, taken, none⟩ := reading.takes read
      cases none
  | pass nothing _ ih =>
    cases two with
    | pass _ others => exact ih others
    | read read _ => exact absurd ⟨_, _, read⟩ nothing
  | read read _ ih =>
    cases two with
    | nil =>
      obtain ⟨c, taken, none⟩ := reading.takes read
      cases none
    | pass nothing _ => exact absurd ⟨_, _, read⟩ nothing
    | read read' others =>
      obtain ⟨rfl, rfl⟩ := reading.unique read read'
      rw [ih others]

theorem ReadsAll.mem {as : List α} (all : ReadsAll reads text as) (member : a ∈ as) :
    ∃ text rest, reads text a rest := by
  induction all with
  | nil => cases member
  | pass _ _ ih => exact ih member
  | read read _ ih =>
    rcases List.mem_cons.mp member with rfl | member
    · exact ⟨_, _, read⟩
    · exact ih member

-- What is made of each thing that is read.
section Made

variable {β : Type} {reads' : List Char → β → List Char → Prop} {f : α → β}
  (made : ∀ text b rest, reads' text b rest ↔ ∃ a, reads text a rest ∧ f a = b)

include made

theorem Reading.map (reading : Reading reads) : Reading reads' where
  unique one two := by
    obtain ⟨a, read, rfl⟩ := (made _ _ _).mp one
    obtain ⟨a', read', rfl⟩ := (made _ _ _).mp two
    obtain ⟨rfl, same⟩ := reading.unique read read'
    exact ⟨rfl, same⟩
  takes read := by
    obtain ⟨a, read, _⟩ := (made _ _ _).mp read
    exact reading.takes read

theorem ReadsAll.map {as : List α} (all : ReadsAll reads text as) : ReadsAll reads' text (as.map f) := by
  induction all with
  | nil => exact .nil
  | pass nothing _ ih =>
    refine .pass ?_ ih
    rintro ⟨b, rest, read⟩
    obtain ⟨a, read, _⟩ := (made _ _ _).mp read
    exact nothing ⟨a, rest, read⟩
  | read read _ ih => exact .read ((made _ _ _).mpr ⟨_, read, rfl⟩) ih

end Made

-- Something is read from left to right exactly if something is read anywhere.
theorem ReadsAll.nil_iff (reading : Reading reads) {as : List α} (all : ReadsAll reads text as) :
    as = [] ↔ ∀ lead rest, text = lead ++ rest → ¬ ReadHere reads none rest := by
  induction all with
  | nil =>
    refine iff_of_true rfl ?_
    rintro lead rest whole ⟨a, left, read⟩
    obtain ⟨c, taken, rfl⟩ := reading.takes read
    simp at whole
  | @pass c text as nothing _ ih =>
    rw [ih]
    constructor
    · intro later lead rest whole
      cases lead with
      | nil => exact (List.nil_append rest ▸ whole) ▸ nothing
      | cons d lead => exact later lead rest (List.cons.inj whole).2
    · intro all lead rest whole
      exact all (c :: lead) rest (by rw [whole, List.cons_append])
  | @read text rest a as read _ _ =>
    refine iff_of_false (by simp) fun nowhere => ?_
    exact nowhere [] text rfl ⟨a, rest, read⟩

variable {p : Pattern} {groups : α → List String}

-- A match keeps what is read in its groups and ends where the reading does.
def Pattern.ReadsAs (p : Pattern) (groups : α → List String) (reads : List Char → α → List Char → Prop) : Prop :=
  ∀ place before text m, p.matchHere place before text = some m ↔
    ∃ a rest, reads text a rest ∧ m = ⟨place, text.length - rest.length, groups a⟩

-- It is enough that a match reads something, and that a match is found where something can be read.
theorem Pattern.readsAs_of (reading : Reading reads)
    (sound : ∀ s t, run p s = some t → s.groups = [] →
      ∃ a, reads s.rest a t.rest ∧ t.groups.reverse.map String.ofList = groups a)
    (complete : ∀ s a rest, reads s.rest a rest → (run p s).isSome = true) : p.ReadsAs groups reads := by
  have found : ∀ {place before text m}, p.matchHere place before text = some m →
      ∃ a rest, reads text a rest ∧ m = ⟨place, text.length - rest.length, groups a⟩ := by
    intro place before text m here
    obtain ⟨t, ran, rfl⟩ := Option.map_eq_some_iff.mp here
    obtain ⟨a, read, kept⟩ := sound _ t ran rfl
    exact ⟨a, t.rest, read, by rw [kept]⟩
  intro place before text m
  refine ⟨found, ?_⟩
  rintro ⟨a, rest, read, rfl⟩
  have matched := complete { before, rest := text } a rest read
  rw [← matchHere_isSome place] at matched
  obtain ⟨m, here⟩ := Option.isSome_iff_exists.mp matched
  obtain ⟨b, left, read', rfl⟩ := found here
  obtain ⟨rfl, rfl⟩ := reading.unique read read'
  exact here

namespace Pattern.ReadsAs

variable (exact : p.ReadsAs groups reads)

include exact

theorem here (before : Option Char) (text : List Char) :
    (run p { before, rest := text }).isSome = true ↔ ReadHere reads before text := by
  rw [← matchHere_isSome 0, Option.isSome_iff_exists]
  constructor
  · rintro ⟨m, found⟩
    obtain ⟨a, rest, read, _⟩ := (exact 0 before text m).mp found
    exact ⟨a, rest, read⟩
  · rintro ⟨a, rest, read⟩
    exact ⟨_, (exact 0 before text _).mpr ⟨a, rest, read, rfl⟩⟩

theorem first_of_find? {m : Match} (found : p.find? source = some m) :
    ∃ a, FirstRead reads source a ∧ m.groups = groups a := by
  obtain ⟨lead, text, whole, first, here⟩ := (find?_some exact.here).mp found
  obtain ⟨a, rest, read, rfl⟩ := (exact _ _ _ _).mp here
  exact ⟨a, ⟨lead, text, rest, whole, first, read⟩, rfl⟩

theorem find?_of_first (reading : Reading reads) (first : FirstRead reads source a) :
    ∃ m, p.find? source = some m ∧ m.groups = groups a := by
  have given := first
  obtain ⟨lead, text, rest, whole, place, read⟩ := first
  obtain ⟨m, text', whole', found, _⟩ := find?_at exact.here place
  obtain ⟨b, first', kept⟩ := exact.first_of_find? found
  exact ⟨m, found, by rw [kept, given.unique reading first']⟩

-- Behind a match the search goes on where the reading ended.
theorem allFrom_reads (reading : Reading reads) (text : List Char) (place : Nat) (before : Option Char) :
    ∃ as, ReadsAll reads text as ∧ (p.allFrom 0 place before text).map (·.groups) = as.map groups := by
  induction size : text.length using Nat.strongRecOn generalizing text place before with
  | ind n ih =>
  subst size
  cases text with
  | nil => exact ⟨[], .nil, rfl⟩
  | cons c text =>
    rw [allFrom]
    cases found : p.matchHere place before (c :: text) with
    | none =>
      obtain ⟨as, later, kept⟩ := ih text.length (Nat.lt_succ_self _) text (place + 1) (some c) rfl
      refine ⟨as, .pass ?_ later, kept⟩
      rintro ⟨a, rest, read⟩
      have here := (exact place before _ _).mpr ⟨a, rest, read, rfl⟩
      rw [found] at here
      cases here
    | some m =>
      obtain ⟨a, rest, read, rfl⟩ := (exact _ _ _ _).mp found
      obtain ⟨d, taken, whole⟩ := reading.takes read
      obtain ⟨rfl, rfl⟩ := List.cons.inj whole
      have shorter : rest.length < (c :: (taken ++ rest)).length := by
        simp only [List.length_cons, List.length_append]
        omega
      have passed : (c :: (taken ++ rest)).length - rest.length - 1 = taken.length := by
        simp only [List.length_cons, List.length_append]
        omega
      obtain ⟨as, later, kept⟩ := ih rest.length shorter rest (place + 1 + taken.length)
        (taken.getLast?.or (some c)) rfl
      refine ⟨a :: as, .read read later, ?_⟩
      simp only [List.map_cons, passed, allFrom_skip, kept]

theorem findAll_reads (reading : Reading reads) (source : String) :
    ∃ as, ReadsAll reads source.toList as ∧ (p.findAll source).map (·.groups) = as.map groups :=
  exact.allFrom_reads reading source.toList 0 none

end Pattern.ReadsAs

def oneGroup (inside : List Char) : List String := [String.ofList inside]

theorem Pattern.ReadsAs.find?_group {reads : List Char → List Char → List Char → Prop}
    (exact : p.ReadsAs oneGroup reads) (reading : Reading reads) {text : String} :
    (p.find? source).map (·.group 0) = some text ↔ FirstRead reads source text.toList := by
  rw [Option.map_eq_some_iff]
  constructor
  · rintro ⟨m, found, rfl⟩
    obtain ⟨a, first, groups⟩ := exact.first_of_find? found
    rw [Match.group, groups]
    simpa [oneGroup] using first
  · intro first
    obtain ⟨m, found, groups⟩ := exact.find?_of_first reading first
    refine ⟨m, found, ?_⟩
    rw [Match.group, groups, oneGroup, String.ofList_toList]
    rfl

end Readings

-- The group is what stands between its ends.
theorem run_kept {p : Char → Bool} {steps : List Step} {s t : State}
    (ran : run (.opens :: .many p :: .closes :: steps) s = some t) :
    ∃ inside rest before, s.rest = inside ++ rest ∧ inside.all p = true ∧
      run steps { before, rest, openAt := s.rest, groups := inside :: s.groups } = some t := by
  obtain ⟨_, opens, ran⟩ := run_cons ran
  cases opens
  obtain ⟨inside, rest, before, here, fits, ran⟩ := run_cons_many ran
  obtain ⟨_, closes, ran⟩ := run_cons ran
  cases closes
  dsimp only at here
  simp only [here, take_front] at ran
  exact ⟨inside, rest, before, here, fits, here ▸ ran⟩

theorem run_chosen {words : List (List Char)} {steps : List Step} {s t : State}
    (ran : run (.opens :: .oneOf words :: .closes :: steps) s = some t) :
    ∃ w ∈ words, ∃ rest before, s.rest = w ++ rest ∧
      run steps { before, rest, openAt := s.rest, groups := w :: s.groups } = some t := by
  obtain ⟨_, opens, ran⟩ := run_cons ran
  cases opens
  obtain ⟨_, passes, ran⟩ := run_cons ran
  cases passes with
  | oneOf member here =>
    obtain ⟨_, closes, ran⟩ := run_cons ran
    cases closes
    dsimp only at here
    simp only [here, take_front] at ran
    exact ⟨_, member, _, _, here, here ▸ ran⟩

section Between

variable {p : Char → Bool} {opening closing : String} {text inside inside' after after' : List Char}

def Pattern.between (opening : String) (p : Char → Bool) (closing : String) : Pattern :=
  [word opening, .opens, .many p, .closes, word closing]

-- As many characters of a class as can stand between the words.
structure Between (opening : String) (p : Char → Bool) (closing : String) (text inside after : List Char) : Prop where
  written : text = opening.toList ++ (inside ++ (closing.toList ++ after))
  fits : inside.all p = true
  longest : ∀ other more, text = opening.toList ++ (other ++ (closing.toList ++ more)) → other.all p = true →
    other.length ≤ inside.length

theorem Between.unique (one : Between opening p closing text inside after)
    (two : Between opening p closing text inside' after') : inside = inside' ∧ after = after' := by
  have size : inside.length = inside'.length :=
    Nat.le_antisymm (two.longest _ _ one.written one.fits) (one.longest _ _ two.written two.fits)
  have same := List.append_cancel_left (one.written.symm.trans two.written)
  obtain ⟨rfl, rest⟩ := List.append_inj same size
  exact ⟨rfl, List.append_cancel_left rest⟩

theorem between_reading (filled : opening ≠ "") : Reading (Between opening p closing) where
  unique := Between.unique
  takes := by
    intro text inside after between
    obtain ⟨c, more, open_⟩ := List.exists_cons_of_ne_nil (mt String.toList_eq_nil_iff.mp filled)
    refine ⟨c, more ++ (inside ++ closing.toList), ?_⟩
    rw [between.written, open_]
    simp only [List.cons_append, List.append_assoc]

-- A class without the first character of the closing word leaves no choice.
theorem between_of_ends {c : Char} {more : List Char} (ends : closing.toList = c :: more) (foreign : p c = false)
    (fits : inside.all p = true) :
    Between opening p closing (opening.toList ++ (inside ++ (closing.toList ++ after))) inside after := by
  refine ⟨rfl, fits, fun other rest whole fitsToo => ?_⟩
  have same := List.append_cancel_left whole
  have stops : ∀ rest, (closing.toList ++ rest).head?.any p = false := by
    intro rest
    rw [ends]
    exact foreign
  have spans := congrArg (List.takeWhile p) same
  rw [takeWhile_inside fits (stops _), takeWhile_inside fitsToo (stops _)] at spans
  exact Nat.le_of_eq (congrArg List.length spans.symm)

theorem run_between {s t : State} (ran : run (Pattern.between opening p closing) s = some t) :
    ∃ inside, Between opening p closing s.rest inside t.rest ∧ t.groups = inside :: s.groups := by
  obtain ⟨before, text, openAt, groups⟩ := s
  obtain ⟨_, _, here, ran⟩ := run_cons_text ran
  obtain ⟨_, opens, ran⟩ := run_cons ran
  cases opens
  obtain ⟨inside, left, here', fits, closed, longest⟩ := manyThen_longest ran
  obtain ⟨_, closes, ran⟩ := run_cons closed
  cases closes
  obtain ⟨_, _, here'', done⟩ := run_cons_text ran
  cases done
  dsimp only at here here' here'' longest
  subst here here' here''
  refine ⟨inside, ⟨rfl, fits, fun other more whole fitsToo => ?_⟩, ?_⟩
  · exact longest other (closing.toList ++ more) (List.append_cancel_left whole) fitsToo
      (run_isSome.mpr ⟨more, rfl, trivial⟩)
  · simp

theorem between_passable {s : State} : (run (Pattern.between opening p closing) s).isSome = true ↔
    ∃ inside after, s.rest = opening.toList ++ (inside ++ (closing.toList ++ after)) ∧ inside.all p = true := by
  rw [run_isSome]
  constructor
  · rintro ⟨_, here, inside, _, rfl, fits, after, rfl, _⟩
    exact ⟨inside, after, here, fits⟩
  · rintro ⟨inside, after, here, fits⟩
    exact ⟨_, here, inside, _, rfl, fits, after, rfl, trivial⟩

theorem between_readsAs (filled : opening ≠ "") :
    (Pattern.between opening p closing).ReadsAs oneGroup (Between opening p closing) := by
  refine Pattern.readsAs_of (between_reading filled) ?_ ?_
  · intro s t ran fresh
    obtain ⟨inside, between, groups⟩ := run_between ran
    exact ⟨inside, between, by rw [groups, fresh]; rfl⟩
  · intro s inside after between
    exact between_passable.mpr ⟨inside, after, between.written, between.fits⟩

end Between

end CallAtlas.Text
