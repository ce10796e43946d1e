import CallAtlas.Proofs.Go.LiteralTokens
import CallAtlas.Proofs.Go.Shifts

namespace CallAtlas.Go

open CallAtlas.Text

theorem Token.Spelled.within {chars : List Char} {t : Token} (spelled : t.Spelled chars) : t.stop ≤ byteLength chars := by
  obtain ⟨lead, taken, behind, rfl, _, stop, _⟩ := spelled
  rw [stop, byteLength_append, byteLength_append]
  omega

namespace Grammar

open Rule

-- What is still to be read stands in the text, from `start` on.
structure Ahead (chars : List Char) (start : Nat) (input : Input) : Prop where
  stop : input.stop ≤ byteLength chars
  tokens : ∀ t ∈ input.tokens, t.Spelled chars ∧ start ≤ t.start

theorem ahead_carried (chars : List Char) (start : Nat) : Carried (Ahead chars start) where
  tail t more _ given :=
    ⟨(given.tokens t List.mem_cons_self).1.within, fun u member => given.tokens u (List.mem_cons_of_mem _ member)⟩
  newline t more _ given := by
    refine ⟨given.stop, fun u member => ?_⟩
    rcases List.mem_cons.mp member with rfl | member
    · exact given.tokens t List.mem_cons_self
    · exact given.tokens u (List.mem_cons_of_mem _ member)
  halves t more _ _ given := by
    refine ⟨given.stop, fun u member => ?_⟩
    rcases List.mem_append.mp member with member | member
    · obtain ⟨spelled, after⟩ := given.tokens t List.mem_cons_self
      refine ⟨halves_spelled spelled member, ?_⟩
      rcases halves_mark member with rfl | ⟨_, behind⟩
      · exact after
      · exact Nat.le_trans after behind
    · exact given.tokens u (List.mem_cons_of_mem _ member)

-- A function whose positions are counted in a text.
structure FunctionSpec.Inside (text : List Char) (f : FunctionSpec) : Prop where
  stop : f.stop ≤ byteLength text
  params : ∃ lead behind, text = lead ++ behind ∧ f.paramsStart = byteLength lead
  paramsStop : f.paramsStop ≤ byteLength text

def Item.Inside (text : List Char) : Item → Prop
  | .function f => f.Inside text
  | _ => True

section Reading

variable {front text : List Char} {s : Setting} {c : Calls} (start : s.start = byteLength front)
  (carries : Carries (Ahead (front ++ text) s.start) c)

include start

theorem stop_answers : Answers (Ahead (front ++ text) s.start) s c (· ≤ byteLength text) Rule.stop := by
  intro input n rest given ran
  obtain ⟨rfl, _⟩ := done_stop.mp ran
  have bound := given.stop
  rw [byteLength_append, ← start] at bound
  omega

theorem peek_answers : Answers (Ahead (front ++ text) s.start) s c
    (fun t => ∃ lead behind, text = lead ++ behind ∧ t.start = byteLength lead) peek := by
  intro input t rest given ran
  obtain ⟨rfl, _⟩ := done_peekAt.mp ran
  cases tokens : input.tokens with
  | nil => exact ⟨[], text, rfl, by simp [ahead, Setting.sees, Token.ending]⟩
  | cons u more =>
    obtain ⟨⟨lead, taken, behind, whole, place, _⟩, after⟩ := given.tokens u (tokens ▸ List.mem_cons_self)
    rw [place, start] at after
    obtain ⟨between, rfl⟩ := prefix_of_bytes whole after
    rw [List.append_assoc] at whole
    refine ⟨between, taken ++ behind, List.append_cancel_left whole, ?_⟩
    change u.start - s.start = _
    rw [place, start, byteLength_append, Nat.add_sub_cancel_left]

include carries

theorem functionDeclaration_answers (name : String) (isMethod : Bool) :
    Answers (Ahead (front ++ text) s.start) s c (Item.Inside text) (functionDeclaration name isMethod) := by
  have carried := ahead_carried (front ++ text) s.start
  unfold functionDeclaration
  dsimp only
  refine Answers.after carried carries fun bracket => Answers.optional carried carries fun _ => ?_
  refine Answers.bind carried carries (peek_answers start) fun first params => Answers.after carried carries fun _ => ?_
  refine Answers.bind carried carries (stop_answers start) fun paramsStop inside => Answers.after carried carries fun _ => ?_
  refine Answers.after carried carries fun body => Answers.optional carried carries fun _ => ?_
  exact Answers.bind carried carries (stop_answers start) fun stop behind => Answers.pure ⟨behind, params, inside⟩

theorem topLevel_answers : Answers (Ahead (front ++ text) s.start) s c (fun r => r.1.Inside text) topLevel := by
  have carried := ahead_carried (front ++ text) s.start
  unfold topLevel
  dsimp only
  have statement : Answers (Ahead (front ++ text) s.start) s c (fun r : Item × Bool => r.1.Inside text)
      (do let ended ← statement false; pure (.statement, ended)) :=
    Answers.after carried carries fun _ => Answers.pure trivial
  refine Answers.after carried carries fun t => ?_
  split
  · refine Answers.bind carried carries (Answers.of_gives packageClause_gives) fun item clause => Answers.pure ?_
    obtain ⟨_, rfl⟩ := clause
    trivial
  split
  · refine Answers.bind carried carries (Answers.of_gives importDeclaration_gives) fun item imports => Answers.pure ?_
    obtain ⟨_, rfl⟩ := imports
    trivial
  split
  · refine Answers.after carried carries fun head => ?_
    split
    · exact Answers.bind carried carries (functionDeclaration_answers start carries _ _) fun _ inside => Answers.pure inside
    · exact statement
  split
  · refine Answers.after carried carries fun d => Answers.pure ?_
    split <;> trivial
  · exact statement

theorem entry_answers : Answers (Ahead (front ++ text) s.start) s c (Item.Inside text) entry := by
  have carried := ahead_carried (front ++ text) s.start
  unfold entry
  refine Answers.bind carried carries (topLevel_answers start carries) fun r inside => Answers.after carried carries fun t => ?_
  dsimp only
  split
  · exact Answers.after carried carries fun _ => Answers.pure inside
  · exact Answers.after carried carries fun _ => Answers.pure inside

end Reading

-- An item whose positions are counted in the text that follows its beginning.
def Placed.Inside (chars : List Char) (p : Placed) : Prop :=
  ∃ front text, chars = front ++ text ∧ p.start = byteLength front ∧ p.item.Inside text

theorem Standing.ahead {source : String} {t : Token} {more : List Token} (given : Standing source (t :: more)) :
    Ahead source.toList t.start ⟨{ t with newline := false, comments := [] } :: more, t.start⟩ := by
  refine ⟨?_, fun u member => ⟨given.begin.spelled u member, ?_⟩⟩
  · obtain ⟨lead, taken, behind, whole, start, _⟩ := given.spelled t List.mem_cons_self
    rw [whole, start, byteLength_append]
    exact Nat.le_add_right _ _
  · rcases List.mem_cons.mp member with rfl | member
    · exact Nat.le_refl _
    · exact (given.from_first u (List.mem_cons_of_mem _ member)).1

theorem items_inside {source : String} {n : Nat} {ts : List Token} {placed : List Placed} (given : Standing source ts)
    (read : items n ts = some placed) : ∀ p ∈ placed, p.Inside source.toList := by
  refine items_all (Q := Standing source) (fun t more item rest given ran => ⟨?_, (runItem_read given ran).2⟩) given read
  obtain ⟨front, taken, behind, whole, start, _⟩ := given.spelled t List.mem_cons_self
  refine ⟨front, taken ++ behind, whole, start, ?_⟩
  let s : Setting := { start := t.start, line := t.line }
  have answers : Answers (Ahead (front ++ (taken ++ behind)) s.start) s (calls s room) (Item.Inside (taken ++ behind)) entry :=
    entry_answers start (calls_carried (ahead_carried _ s.start) s room)
  exact answers _ item rest (whole ▸ given.ahead) ran

-- Functions that are read from a text are the same if more follows it.
theorem Placed.Inside.function? {chars : List Char} {p : Placed} (inside : p.Inside chars) (behind : List Char) :
    p.function? (chars ++ behind) = p.function? chars := by
  obtain ⟨front, text, rfl, start, item⟩ := inside
  unfold Placed.function? Placed.text
  rw [start, List.append_assoc, dropBytes_append, dropBytes_append]
  cases kind : p.item with
  | function f =>
    rw [kind] at item
    obtain ⟨stop, ⟨lead, rest, whole, place⟩, paramsStop⟩ := item
    have alone : text = [] ++ text := rfl
    have source : slice (text ++ behind) 0 f.stop = slice text 0 f.stop := slice_front alone rfl stop behind
    simp only [source, slice_front whole place paramsStop]
  | _ => rfl

end Grammar

-- What a function declares, wherever it stands.
def Function.declared (f : Function) : String × String × String := (f.name, f.params, f.source)

namespace Grammar

theorem function?_shift (front chars : List Char) (lines : Nat) (p : Placed) :
    ((p.shift (byteLength front) lines).function? (front ++ chars)).map Function.declared =
      (p.function? chars).map Function.declared := by
  have text : (p.shift (byteLength front) lines).text (front ++ chars) = p.text chars := by
    rw [Placed.text, Placed.text, Placed.shift, Nat.add_comm, dropBytes_add]
  unfold Placed.function?
  rw [text]
  cases kind : p.item with
  | function f => simp [Placed.shift, kind, Function.declared]
  | _ => simp [Placed.shift, kind]

end Grammar

end CallAtlas.Go
