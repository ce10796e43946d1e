import CallAtlas.Proofs.Go.EdgeFiles
import CallAtlas.Proofs.Go.FunctionNames

namespace CallAtlas.Go.Grammar

open Rule

section Entries

variable {s : Setting} {c : Calls} {u : Token} {X Z Z' : List Token} {stop : Nat}

theorem passNewline_run (t : Token) (more : List Token) (stop : Nat) :
    passNewline.run s c ⟨t :: more, stop⟩ = .done ((), ⟨{ t with newline := false } :: more, stop⟩) := rfl

theorem next_alike (balanced : Balanced 0 (u :: X)) :
    Alike (Balanced 0) Z Z' (next.run s c ⟨u :: X ++ Z, stop⟩) (next.run s c ⟨u :: X ++ Z', stop⟩) := by
  rw [run, run, Input.take?, Input.take?]
  dsimp only [List.cons_append]
  cases single : u.single with
  | false => exact .failed
  | true =>
    obtain ⟨_, _, opens, closes⟩ := single_iff.mp single
    exact .done _ u.stop ((balanced_plain opens closes).mp balanced)

theorem terminator_alike (balanced : Balanced 0 (u :: X)) :
    Alike (Balanced 0) Z Z' (terminator.run s c ⟨u :: X ++ Z, stop⟩) (terminator.run s c ⟨u :: X ++ Z', stop⟩) := by
  change Alike _ _ _ ((if u.newline then passNewline else if u.isMark ";" || u.isMark "\x00" then next >>= fun _ => pure ()
    else fail : Rule Unit).run s c _) ((if u.newline then passNewline else if u.isMark ";" || u.isMark "\x00" then
      next >>= fun _ => pure () else fail : Rule Unit).run s c _)
  split
  · exact .done () (V := { u with newline := false } :: X) stop
      ((balanced_congr (opens_newline u false) (closes_newline u false)).mpr balanced)
  · split
    · exact (next_alike balanced).bind fun _ V stop left => .done () stop left
    · exact .failed

-- How an item ends.
def ending (item : Item) (closable : Bool) : Rule Item := do
  let t ← peek
  if t.kind == .eof && !t.newline then guardThat closable else terminator
  return item

theorem entry_eq : entry = topLevel >>= fun read => ending read.1 read.2 := rfl

theorem ending_alike (item : Item) (closable : Bool) (balanced : Balanced 0 (u :: X)) :
    Alike (Balanced 0) Z Z' ((ending item closable).run s c ⟨u :: X ++ Z, stop⟩)
      ((ending item closable).run s c ⟨u :: X ++ Z', stop⟩) := by
  change Alike _ _ _ ((if u.kind == .eof && !u.newline then guardThat closable >>= fun _ => pure item
    else terminator >>= fun _ => pure item : Rule Item).run s c _) ((if u.kind == .eof && !u.newline then
      guardThat closable >>= fun _ => pure item else terminator >>= fun _ => pure item : Rule Item).run s c _)
  split
  · cases closable with
    | true => exact .done item stop balanced
    | false => exact .failed
  · exact (terminator_alike balanced).bind fun _ V stop left => .done item stop left

end Entries

-- An item that is read up to the end of a text is read up to the next line instead.
theorem entry_edge (g : Edge) (depth : Nat) {X : List Token} (nonempty : X ≠ []) (balanced : Balanced 0 X) {stop : Nat}
    {item : Item} {rest : Input}
    (ran : entry.run g.setting (calls g.setting depth) ⟨X ++ [g.last], stop⟩ = .done (item, rest)) :
    ∃ V last next stop', rest = ⟨V ++ [last], stop'⟩ ∧ last.kind = .eof ∧ Balanced 0 V ∧
      (next = g.next ∨ V = [] ∧ next = { g.next with newline := false }) ∧
      entry.run g.setting (calls g.setting depth) ⟨X ++ g.next :: g.behind, stop⟩ =
        .done (item, ⟨V ++ next :: g.behind, stop'⟩) := by
  rw [entry_eq] at ran ⊢
  obtain ⟨⟨item', closable⟩, middle, read, ended⟩ := done_bind.mp ran
  obtain ⟨X', stop₁, rfl, balanced', _, same⟩ := topLevel_passes g depth X nonempty balanced stop _ middle read
  rw [run_bind, same (.inr trivial)]
  dsimp only [bind_done]
  cases X' with
  | nil =>
    have long : (ending item' closable).run g.setting (calls g.setting depth) ⟨g.next :: g.behind, stop₁⟩ =
        .done (item', ⟨{ g.next with newline := false } :: g.behind, stop₁⟩) := by
      simp [ending, terminator, passNewline_run]
    have short : ∃ last, rest = ⟨[last], stop₁⟩ ∧ last.kind = .eof ∧ item = item' := by
      cases newline : g.last.newline with
      | true =>
        simp [ending, terminator, Setting.sees_newline, newline, passNewline_run] at ended
        exact ⟨{ g.last with newline := false }, ended.2.symm, g.eof, ended.1.symm⟩
      | false =>
        simp [ending, Setting.sees_newline, newline] at ended
        obtain ⟨⟨_, _⟩, checked, gave⟩ := Attempt.bind_done.mp ended
        obtain ⟨_, rfl⟩ := done_guard.mp checked
        cases gave
        exact ⟨g.last, rfl, g.eof, rfl⟩
    obtain ⟨last, rfl, eof, rfl⟩ := short
    exact ⟨[], last, { g.next with newline := false }, stop₁, rfl, eof, rfl, .inr ⟨rfl, rfl⟩, long⟩
  | cons u X' =>
    have alike := @ending_alike g.setting (calls g.setting depth) u X' [g.last] (g.next :: g.behind) stop₁ item' closable balanced'
    rw [ended] at alike
    generalize (ending item' closable).run g.setting (calls g.setting depth) ⟨u :: X' ++ g.next :: g.behind, stop₁⟩ = long at alike ⊢
    cases alike with
    | done a stop' left => exact ⟨_, g.last, g.next, stop', rfl, g.eof, left, .inl rfl, rfl⟩

-- What stands before the first token of an item does not count.
theorem items_begin (n : Nat) (t : Token) (more : List Token) (b : Bool) (comments : List String) :
    items n ({ t with newline := b, comments := comments } :: more) = items n (t :: more) := by
  cases n <;> rfl

-- The end of the text is the last token.
def Ended (ts : List Token) : Prop := ts.Pairwise fun t _ => t.kind ≠ .eof

theorem ended_kept : Kept Ended where
  tail t more given := (List.pairwise_cons.mp given).2
  newline t more given := by
    obtain ⟨first, others⟩ := List.pairwise_cons.mp given
    exact List.pairwise_cons.mpr ⟨first, others⟩
  halves t more mark given := by
    obtain ⟨first, others⟩ := List.pairwise_cons.mp given
    have marks : ∀ u ∈ Go.halves t, u.kind ≠ .eof := by
      intro u member
      rcases halves_mark member with rfl | ⟨mark', _⟩
      · rw [mark]
        nofun
      · rw [mark']
        nofun
    refine List.pairwise_append.mpr ⟨?_, others, fun u member v _ => marks u member⟩
    exact List.Pairwise.imp_of_mem (fun member _ _ => marks _ member) (List.pairwise_of_forall (R := fun _ _ => True) fun _ _ => trivial)

theorem Ended.begin {t : Token} {more : List Token} (ended : Ended (t :: more)) :
    Ended ({ t with newline := false, comments := [] } :: more) := by
  obtain ⟨first, others⟩ := List.pairwise_cons.mp ended
  exact List.pairwise_cons.mpr ⟨first, others⟩

theorem Ended.inside {X : List Token} {last : Token} (ended : Ended (X ++ [last])) : ∀ t ∈ X, t.kind ≠ .eof :=
  fun t member => (List.pairwise_append.mp ended).2.2 t member last List.mem_cons_self

-- Before all items of a text holds what does at its end.
theorem items_unread {P : Nat → List Token → Prop} (unread : Unread P) (last : ∀ t, t.kind = .eof → P 0 [t]) {n : Nat}
    {ts : List Token} {placed : List Placed} (ended : Ended ts) (read : items n ts = some placed) : P 0 ts := by
  induction n generalizing ts placed with
  | zero => cases read
  | succ n ih =>
    cases ts with
    | nil => cases read
    | cons t more =>
      rcases items_cons read with ⟨eof, _⟩ | ⟨item, rest, others, ran, further, _, _⟩
      · have none : more = [] := by
          refine List.eq_nil_iff_forall_not_mem.mpr fun u member => ?_
          exact (List.pairwise_cons.mp ended).1 u member eof
        rw [none]
        exact last t eof
      · have left : Ended rest.tokens := run_kept ended_kept (calls_kept ended_kept _ room) entry ended.begin ran
        exact unread.spaced _ (run_unread unread (calls_unread unread _ room) entry ran (ih left further))

theorem items_ended {n : Nat} {last : Token} {placed : List Placed} (eof : last.kind = .eof)
    (read : items n [last] = some placed) : placed = [] := by
  cases n with
  | zero => cases read
  | succ n =>
    rcases items_cons read with ⟨_, none⟩ | ⟨_, _, _, _, _, _, other⟩
    · exact none
    · exact absurd eof other

theorem items_append {n : Nat} {X behind : List Token} {last next : Token} {placed : List Placed} (eof : last.kind = .eof)
    (newline : next.newline = true) (balanced : Balanced 0 X) (ended : Ended (X ++ [last]))
    (read : items n (X ++ [last]) = some placed) :
    items n (X ++ next :: behind) = (items (n - placed.length) (next :: behind)).map (placed ++ ·) := by
  induction n generalizing X last placed with
  | zero => cases read
  | succ n ih =>
    cases X with
    | nil =>
      obtain rfl := items_ended eof read
      simp
    | cons t X =>
      have started : t.kind ≠ .eof := ended.inside t List.mem_cons_self
      rcases items_cons read with ⟨none, _⟩ | ⟨item, rest, others, ran, further, rfl, _⟩
      · exact absurd none started
      let s : Setting := { start := t.start, line := t.line }
      let begin : Token := { t with newline := false, comments := [] }
      have left : Ended rest.tokens := run_kept ended_kept (calls_kept ended_kept s room) entry ended.begin ran
      obtain ⟨V, last', next', stop, rfl, eof', balanced', same, long⟩ :=
        entry_edge ⟨s, last, next, behind, eof, newline⟩ room (X := begin :: X) (List.cons_ne_nil _ _) balanced ran
      have first : runItem entry (t :: X ++ next :: behind) = .done (item, ⟨V ++ next' :: behind, stop⟩) := long
      rw [List.cons_append] at first ⊢
      rw [items, if_neg started, first]
      dsimp only
      have following : items n (V ++ next' :: behind) = (items (n - others.length) (next :: behind)).map (others ++ ·) := by
        rcases same with rfl | ⟨rfl, rfl⟩
        · exact ih eof' balanced' left further
        · have none : others = [] := items_ended eof' further
          rw [none, List.nil_append, items_begin n next behind false next.comments]
          simp
      rw [following, Option.map_map, List.length_cons, Nat.add_sub_add_right]
      rfl

end CallAtlas.Go.Grammar
