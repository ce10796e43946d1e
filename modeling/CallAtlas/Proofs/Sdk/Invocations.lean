import CallAtlas.Proofs.Path.Join
import CallAtlas.Proofs.Text.Spans
import CallAtlas.Sdk.Rest

namespace CallAtlas.Sdk.Rest

open CallAtlas.Text

-- Name and function with a dot between them, a parenthesis and the word behind it. The rest of the line
-- comes last.
structure CallText (name : List Char) (i : Invocation) (text : List Char) : Prop where
  written : ∃ below, text = name ++ '.' :: (i.function.toList ++
    '(' :: (i.receiver.toList ++ (i.trailing.toList ++ below))) ∧ below.head?.any Pattern.notNewline = false
  function : i.function.toList.all isWord = true
  receiver : i.receiver.toList.all isWord = true
  whole : i.trailing.toList.head?.any isWord = false
  line : i.trailing.toList.all Pattern.notNewline = true

-- What is read behind the dot.
def calledBehind? (behind : List Char) : Option Invocation :=
  match behind.dropWhile isWord with
  | [] => none
  | c :: inside =>
    if c = '(' then
      some
        { function := String.ofList (behind.takeWhile isWord)
          receiver := String.ofList (inside.takeWhile isWord)
          trailing := String.ofList ((inside.dropWhile isWord).takeWhile Pattern.notNewline) }
    else none

-- The call that a text begins with. `before` is the character in front of it.
def callAt? (name : List Char) (before : Option Char) (text : List Char) : Option Invocation :=
  if Pattern.isEdge before text then (after? (name ++ ['.']) text).bind calledBehind? else none

-- One call for each place where one begins, from left to right.
def callsIn (name : List Char) : Option Char → List Char → List Invocation
  | _, [] => []
  | before, c :: rest => (callAt? name before (c :: rest)).toList ++ callsIn name (some c) rest

def isNewline (c : Char) : Bool := c == '\n'

def rows (source : List Char) : List (List Char) := splitBy isNewline source

section Reading

variable {name text behind inside rest : List Char} {before : Option Char} {i : Invocation} {c : Char}

theorem newline_unworded (line : text.head?.any Pattern.notNewline = false) : text.head?.any isWord = false := by
  cases text with
  | nil => rfl
  | cons c text =>
    have same : c = '\n' := by simpa [Pattern.notNewline] using line
    rw [same]
    exact (by decide : isWord '\n' = false)

theorem calledBehind?_paren (opened : behind.dropWhile isWord = '(' :: inside) :
    calledBehind? behind = some
      { function := String.ofList (behind.takeWhile isWord)
        receiver := String.ofList (inside.takeWhile isWord)
        trailing := String.ofList ((inside.dropWhile isWord).takeWhile Pattern.notNewline) } := by
  rw [calledBehind?, opened]
  simp only [if_true]

theorem calledBehind?_some (called : calledBehind? behind = some i) :
    ∃ inside, behind.dropWhile isWord = '(' :: inside := by
  unfold calledBehind? at called
  split at called
  · cases called
  · rename_i c inside opened
    split at called
    · rename_i paren
      exact ⟨inside, paren ▸ opened⟩
    · cases called

theorem callText_of_called (called : calledBehind? behind = some i) : CallText name i (name ++ '.' :: behind) := by
  obtain ⟨inside, opened⟩ := calledBehind?_some called
  rw [calledBehind?_paren opened] at called
  cases Option.some.inj called
  have split : behind = behind.takeWhile isWord ++ '(' :: inside := by
    rw [← opened, List.takeWhile_append_dropWhile]
  have stops := dropWhile_ends isWord inside
  have ends := dropWhile_ends Pattern.notNewline (inside.dropWhile isWord)
  refine ⟨⟨(inside.dropWhile isWord).dropWhile Pattern.notNewline, ?_, ends⟩, ?_, ?_, ?_, ?_⟩
  · simp only [String.toList_ofList, List.takeWhile_append_dropWhile]
    rw [← split]
  · rw [String.toList_ofList]
    exact List.all_takeWhile
  · rw [String.toList_ofList]
    exact List.all_takeWhile
  · rw [String.toList_ofList]
    cases next : inside.dropWhile isWord with
    | nil => rfl
    | cons d left =>
      rw [next] at stops
      rw [List.takeWhile_cons]
      split
      · exact stops
      · rfl
  · rw [String.toList_ofList]
    exact List.all_takeWhile

theorem called_of_callText (written : CallText name i text) :
    ∃ behind, text = name ++ '.' :: behind ∧ calledBehind? behind = some i := by
  obtain ⟨⟨below, rfl, ends⟩, function, receiver, whole, line⟩ := written
  have paren : ('(' :: (i.receiver.toList ++ (i.trailing.toList ++ below))).head?.any isWord = false :=
    (by decide : isWord '(' = false)
  have word : (i.trailing.toList ++ below).head?.any isWord = false := by
    cases trailing : i.trailing.toList with
    | nil => exact newline_unworded ends
    | cons c more =>
      rw [trailing] at whole
      exact whole
  refine ⟨_, rfl, ?_⟩
  rw [calledBehind?_paren (dropWhile_inside function paren), takeWhile_inside function paren,
    takeWhile_inside receiver word, dropWhile_inside receiver word, takeWhile_inside line ends]
  simp only [String.ofList_toList]

theorem callAt?_exact :
    callAt? name before text = some i ↔ Pattern.isEdge before text = true ∧ CallText name i text := by
  unfold callAt?
  constructor
  · intro found
    split at found
    · rename_i edge
      obtain ⟨behind, passed, called⟩ := Option.bind_eq_some_iff.mp found
      have whole := after?_exact.mp passed
      rw [List.append_assoc, List.singleton_append] at whole
      exact ⟨edge, whole ▸ callText_of_called called⟩
    · cases found
  · intro both
    obtain ⟨edge, written⟩ := both
    obtain ⟨behind, rfl, called⟩ := called_of_callText written
    have passed := after?_append (name ++ ['.']) behind
    rw [List.append_assoc, List.singleton_append] at passed
    rw [if_pos edge, passed]
    exact called

end Reading

section Searching

variable {localName : String} {name text behind : List Char} {before : Option Char} {place : Nat}
  {i : Invocation} {c : Char}

theorem word_inLine (c : Char) (fits : isWord c = true) : Pattern.notNewline c = true := by
  apply bne_iff_ne.mpr
  rintro rfl
  exact absurd fits (by decide)

-- What is left of a line is taken as a whole.
theorem run_line {s : Pattern.State} :
    Pattern.run [.opens, .many Pattern.notNewline, .closes] s = some
      { before := (s.rest.takeWhile Pattern.notNewline).getLast?.or s.before
        rest := s.rest.dropWhile Pattern.notNewline
        openAt := s.rest
        groups := s.rest.takeWhile Pattern.notNewline :: s.groups } := by
  rw [run_group]
  · rfl
  · exact .inl rfl

def afterDot : Pattern :=
  [.opens, .many isWord, .closes, word "(", .opens, .many isWord, .closes, .opens,
    .many Pattern.notNewline, .closes]

theorem paren_begins {text : List Char} : "(".toList <+: c :: text ↔ c = '(' := by
  rw [show "(".toList = ['('] from rfl, List.cons_prefix_cons]
  simp [eq_comm]

-- No character of a word is a parenthesis, so the words are taken as wholes.
theorem run_afterDot {s : Pattern.State} (fresh : s.groups = []) :
    (Pattern.run afterDot s).map (fun t => (t.rest, t.groups.reverse.map String.ofList)) =
      (calledBehind? s.rest).map fun i =>
        (s.rest.dropWhile Pattern.notNewline, [i.function, i.receiver, i.trailing]) := by
  have stuck : ∀ t : Pattern.State, t.rest.head?.any isWord = true →
      Pattern.run [word "(", .opens, .many isWord, .closes, .opens, .many Pattern.notNewline, .closes] t = none := by
    intro t begins
    apply run_text_stuck
    cases rest : t.rest with
    | nil => exact (by decide : ¬ "(".toList <+: [])
    | cons c more =>
      rw [rest] at begins
      rw [paren_begins]
      intro paren
      rw [paren] at begins
      exact absurd begins (by decide : isWord '(' ≠ true)
  rw [afterDot, run_group (.inr stuck), ← dropWhile_wider word_inLine s.rest]
  cases opened : s.rest.dropWhile isWord with
  | nil =>
    have none : ¬ "(".toList <+: ([] : List Char) := by decide
    rw [run_text_stuck none, calledBehind?, opened]
    rfl
  | cons c inside =>
    by_cases paren : c = '('
    · subst paren
      have drops : ('(' :: inside).dropWhile Pattern.notNewline = inside.dropWhile Pattern.notNewline := rfl
      rw [calledBehind?_paren opened, @run_text "(" inside _ _ rfl, run_group, run_line, fresh, drops,
        ← dropWhile_wider word_inLine inside]
      · rfl
      · rw [run_line]
        exact .inl rfl
    · have none : ¬ "(".toList <+: c :: inside := mt paren_begins.mp paren
      rw [run_text_stuck none, calledBehind?, opened]
      simp only [paren, if_false, Option.map_none]

theorem inLine_dropWhile (line : '\n' ∉ name) (text : List Char) :
    (name ++ text).dropWhile Pattern.notNewline = text.dropWhile Pattern.notNewline := by
  apply List.dropWhile_append_of_pos
  intro c member
  exact bne_iff_ne.mpr fun same => line (same ▸ member)

theorem run_name_stuck {s : Pattern.State} {name : String} {steps : Pattern}
    (absent : after? (name.toList ++ ['.']) s.rest = none) :
    Pattern.run (word name :: word "." :: steps) s = none := by
  by_cases named : name.toList <+: s.rest
  · obtain ⟨left, whole⟩ := named
    rw [run_text whole.symm]
    apply run_text_stuck
    rintro ⟨behind, dot⟩
    have passed := after?_append (name.toList ++ ['.']) behind
    rw [List.append_assoc, show ['.'] ++ behind = left from dot, whole, absent] at passed
    cases passed
  · exact run_text_stuck named

-- A match is a call, and it reaches to the end of the line.
theorem invocation_matchHere (line : '\n' ∉ localName.toList) :
    (invocation localName).matchHere place before text = (callAt? localName.toList before text).map fun i =>
      ⟨place, (text.takeWhile Pattern.notNewline).length, [i.function, i.receiver, i.trailing]⟩ := by
  have steps : invocation localName = .edge :: word localName :: word "." :: afterDot := rfl
  rw [Pattern.matchHere, steps, callAt?, ← length_span]
  by_cases edge : Pattern.isEdge before text = true
  · rw [Pattern.run, if_pos edge, if_pos edge]
    cases passed : after? (localName.toList ++ ['.']) text with
    | none =>
      rw [run_name_stuck passed]
      rfl
    | some behind =>
      have whole := after?_exact.mp passed
      rw [List.append_assoc] at whole
      have left : text.dropWhile Pattern.notNewline = behind.dropWhile Pattern.notNewline := by
        rw [whole, inLine_dropWhile line]
        rfl
      have read := @run_afterDot
        { before := ".".toList.getLast?.or (localName.toList.getLast?.or before), rest := behind } rfl
      have found := congrArg (Option.map fun r : List Char × List String =>
        (⟨place, text.length - r.1.length, r.2⟩ : Match)) read
      rw [Option.map_map, Option.map_map] at found
      rw [run_text whole, run_text rfl, left]
      exact found
  · rw [Pattern.run, if_neg edge, if_neg edge]
    rfl

end Searching

section Rows

variable {name text : List Char} {before : Option Char} {i : Invocation} {c : Char}

def rowsBelow (text : List Char) : List (List Char) :=
  match text.dropWhile Pattern.notNewline with
  | [] => []
  | _ :: below => rows below

theorem rowsBelow_newline (text : List Char) : rowsBelow ('\n' :: text) = rows text := rfl

theorem rowsBelow_inLine (inLine : Pattern.notNewline c = true) : rowsBelow (c :: text) = rowsBelow text := by
  rw [rowsBelow, List.dropWhile_cons_of_pos inLine]
  rfl

theorem newline_of_not (ends : Pattern.notNewline c ≠ true) : c = '\n' := by
  simpa [Pattern.notNewline] using ends

theorem rows_eq (text : List Char) : rows text = text.takeWhile Pattern.notNewline :: rowsBelow text := by
  induction text with
  | nil => rfl
  | cons c text ih =>
    by_cases inLine : Pattern.notNewline c = true
    · have other : isNewline c = false := by simpa [isNewline, Pattern.notNewline] using inLine
      rw [rows] at ih
      rw [rows, splitBy, other, ih, List.takeWhile_cons_of_pos inLine, rowsBelow_inLine inLine]
      rfl
    · rw [newline_of_not inLine]
      rfl

-- A call stands on one line.
theorem CallText.inLine (line : '\n' ∉ name) (written : CallText name i text) :
    (name ++ '.' :: (i.function.toList ++ '(' :: (i.receiver.toList ++ i.trailing.toList))).all
      Pattern.notNewline = true := by
  have names : name.all Pattern.notNewline = true := by
    apply List.all_eq_true.mpr
    intro c member
    exact bne_iff_ne.mpr fun same => line (same ▸ member)
  have words : ∀ {w : List Char}, w.all isWord = true → w.all Pattern.notNewline = true := by
    intro w fits
    apply List.all_eq_true.mpr
    intro c member
    exact word_inLine c (List.all_eq_true.mp fits c member)
  simp only [List.all_append, List.all_cons, names, words written.function, words written.receiver, written.line,
    Bool.true_and, Bool.and_true]
  decide

theorem callText_row (line : '\n' ∉ name) :
    CallText name i text ↔ CallText name i (text.takeWhile Pattern.notNewline) := by
  constructor
  · intro call
    obtain ⟨below, whole, ends⟩ := call.written
    have front := takeWhile_inside (call.inLine line) ends
    refine ⟨⟨[], ?_, rfl⟩, call.function, call.receiver, call.whole, call.line⟩
    rw [whole, List.append_nil, ← front]
    simp only [List.append_assoc, List.cons_append]
  · intro call
    obtain ⟨below, whole, ends⟩ := call.written
    refine ⟨⟨below ++ text.dropWhile Pattern.notNewline, ?_, ?_⟩, call.function, call.receiver, call.whole, call.line⟩
    · conv => lhs; rw [← List.takeWhile_append_dropWhile (p := Pattern.notNewline) (l := text), whole]
      simp only [List.append_assoc, List.cons_append]
    · cases below with
      | nil => exact dropWhile_ends Pattern.notNewline text
      | cons c below => exact ends

theorem callAt?_row (line : '\n' ∉ name) :
    callAt? name before text = callAt? name before (text.takeWhile Pattern.notNewline) := by
  have head : text.head?.any isWord = (text.takeWhile Pattern.notNewline).head?.any isWord := by
    cases text with
    | nil => rfl
    | cons c text =>
      by_cases inLine : Pattern.notNewline c = true
      · rw [List.takeWhile_cons_of_pos inLine]
        rfl
      · rw [newline_of_not inLine]
        exact (by decide : isWord '\n' = false)
  apply Option.ext
  intro i
  rw [callAt?_exact, callAt?_exact, callText_row line, Pattern.isEdge, Pattern.isEdge, head]

theorem callAt?_newline (line : '\n' ∉ name) : callAt? name before ('\n' :: text) = none := by
  rw [callAt?_row line]
  have empty : ('\n' :: text).takeWhile Pattern.notNewline = [] := rfl
  rw [empty, Option.eq_none_iff_forall_ne_some]
  intro i found
  obtain ⟨below, whole, _⟩ := (callAt?_exact.mp found).2.written
  exact absurd whole.symm (by simp)

-- A line begins as a text does.
theorem callsIn_start (name text : List Char) : callsIn name (some '\n') text = callsIn name none text := by
  cases text with
  | nil => rfl
  | cons c text =>
    have same : Pattern.isEdge (some '\n') (c :: text) = Pattern.isEdge none (c :: text) := by
      rw [Pattern.isEdge, Pattern.isEdge]
      rfl
    rw [callsIn, callsIn, callAt?, callAt?, same]

theorem callsIn_row (line : '\n' ∉ name) (inLine : Pattern.notNewline c = true) :
    callsIn name before ((c :: text).takeWhile Pattern.notNewline) =
      (callAt? name before (c :: text)).toList ++ callsIn name (some c) (text.takeWhile Pattern.notNewline) := by
  rw [callAt?_row line, List.takeWhile_cons_of_pos inLine, callsIn]

-- The calls of a text are those of its lines.
theorem callsIn_rows (line : '\n' ∉ name) (text : List Char) (before : Option Char) :
    callsIn name before text =
      callsIn name before (text.takeWhile Pattern.notNewline) ++ (rowsBelow text).flatMap (callsIn name none) := by
  induction text generalizing before with
  | nil => rfl
  | cons c text ih =>
    by_cases inLine : Pattern.notNewline c = true
    · rw [callsIn_row line inLine, rowsBelow_inLine inLine, callsIn, ih, List.append_assoc]
    · rw [newline_of_not inLine, callsIn, callAt?_newline line, rowsBelow_newline, rows_eq, List.flatMap_cons, ih,
        callsIn_start]
      rfl

end Rows

section Found

variable {localName : String} {text : List Char} {before : Option Char} {place : Nat}

def ofMatch (m : Match) : Invocation := ⟨m.group 0, m.group 1, m.group 2⟩

def firstIn? (name row : List Char) : Option Invocation := (callsIn name none row).head?

-- What the search finds in a text, the first line of which may have begun before it.
def FindsFirst (localName : String) (place : Nat) (before : Option Char) (text : List Char) : Prop :=
  ((invocation localName).allFrom 0 place before text).map ofMatch =
    (callsIn localName.toList before (text.takeWhile Pattern.notNewline)).head?.toList ++
      (rowsBelow text).filterMap (firstIn? localName.toList)

theorem search_newline (line : '\n' ∉ localName.toList) (below : FindsFirst localName (place + 1) (some '\n') text) :
    ((invocation localName).allFrom 0 place before ('\n' :: text)).map ofMatch =
      (rows text).filterMap (firstIn? localName.toList) := by
  rw [Pattern.allFrom, invocation_matchHere line, callAt?_newline line, rows_eq, List.filterMap_cons]
  rw [FindsFirst, callsIn_start] at below
  cases first : firstIn? localName.toList (text.takeWhile Pattern.notNewline) with
  | none =>
    rw [firstIn?] at first
    rw [first] at below
    exact below
  | some i =>
    rw [firstIn?] at first
    rw [first] at below
    exact below

-- By induction on the length, since a match is passed over as a whole.
theorem search_rows (line : '\n' ∉ localName.toList) (text : List Char) (place : Nat) (before : Option Char) :
    FindsFirst localName place before text := by
  induction size : text.length using Nat.strongRecOn generalizing text place before with
  | ind n ih =>
  subst size
  cases text with
  | nil => rfl
  | cons c text =>
    have later := ih text.length (Nat.lt_succ_self _) text (place + 1) (some c) rfl
    by_cases inLine : Pattern.notNewline c = true
    · rw [FindsFirst, Pattern.allFrom, invocation_matchHere line, callsIn_row line inLine, rowsBelow_inLine inLine]
      cases here : callAt? localName.toList before (c :: text) with
      | none => exact later
      | some i =>
        -- The match ends with the line, and the search goes on at the next one.
        have skipped := @allFrom_skip (place + 1) (some c) (invocation localName)
          (text.takeWhile Pattern.notNewline) (text.dropWhile Pattern.notNewline)
        rw [List.takeWhile_append_dropWhile] at skipped
        rw [List.takeWhile_cons_of_pos inLine]
        simp only [Option.map_some, List.map_cons, List.length_cons, Nat.add_sub_cancel, skipped]
        refine congrArg (i :: ·) ?_
        rw [rowsBelow]
        cases rest : text.dropWhile Pattern.notNewline with
        | nil => rfl
        | cons d below =>
          have ends := dropWhile_ends Pattern.notNewline text
          rw [rest] at ends
          have newline : d = '\n' := newline_of_not (Bool.eq_false_iff.mp ends)
          have shorter : below.length < (c :: text).length := by
            have sizes := congrArg List.length
              (List.takeWhile_append_dropWhile (p := Pattern.notNewline) (l := text))
            rw [rest, List.length_append, List.length_cons] at sizes
            rw [List.length_cons]
            omega
          rw [newline]
          exact search_newline line (ih below.length shorter below _ _ rfl)
    · rw [newline_of_not inLine] at later ⊢
      rw [FindsFirst, search_newline line later]
      rfl

theorem length_firsts {α : Type} (lists : List (List α)) :
    (lists.filterMap List.head?).length ≤ lists.flatten.length := by
  induction lists with
  | nil => exact Nat.le_refl 0
  | cons list rest ih =>
    cases list with
    | nil => exact ih
    | cons a more =>
      simp only [List.filterMap_cons, List.head?_cons, List.flatten_cons, List.length_cons, List.length_append]
      omega

theorem firsts_eq_all {α : Type} (lists : List (List α)) :
    lists.filterMap List.head? = lists.flatten ↔ ∀ list ∈ lists, list.length ≤ 1 := by
  induction lists with
  | nil => simp
  | cons list rest ih =>
    rw [List.forall_mem_cons, ← ih]
    cases list with
    | nil => exact (and_iff_right (Nat.zero_le 1)).symm
    | cons a more =>
      simp only [List.filterMap_cons, List.head?_cons, List.flatten_cons, List.cons_append, List.cons.injEq, true_and,
        List.length_cons, Nat.succ_le_succ_iff, Nat.le_zero, List.length_eq_zero_iff]
      constructor
      · intro same
        have lengths := congrArg List.length same
        have bound := length_firsts rest
        rw [List.length_append] at lengths
        have none : more = [] := List.length_eq_zero_iff.mp (by omega)
        rw [none] at same
        exact ⟨none, same⟩
      · intro both
        rw [both.1, both.2]
        rfl

-- Of the calls on a line the first is found, so all are found exactly if no line has two. The lines are
-- those between newlines, and a name with a newline is none.
theorem invocations_exact (source : String) (package : Package) (line : '\n' ∉ package.localName.toList) :
    (∀ before text i, callAt? package.localName.toList before text = some i ↔
        Pattern.isEdge before text = true ∧ CallText package.localName.toList i text) ∧
      callsIn package.localName.toList none source.toList =
        (rows source.toList).flatMap (callsIn package.localName.toList none) ∧
      invocations source package =
        (rows source.toList).filterMap (fun row => (callsIn package.localName.toList none row).head?) ∧
      (invocations source package = callsIn package.localName.toList none source.toList ↔
        ∀ row ∈ rows source.toList, (callsIn package.localName.toList none row).length ≤ 1) := by
  have whole : callsIn package.localName.toList none source.toList =
      (rows source.toList).flatMap (callsIn package.localName.toList none) := by
    rw [callsIn_rows line, rows_eq, List.flatMap_cons]
  have found : invocations source package =
      (rows source.toList).filterMap (firstIn? package.localName.toList) := by
    have searched := search_rows line source.toList 0 none
    rw [FindsFirst] at searched
    rw [rows_eq, List.filterMap_cons]
    refine searched.trans ?_
    rw [firstIn?]
    cases (callsIn package.localName.toList none (source.toList.takeWhile Pattern.notNewline)).head? <;> rfl
  refine ⟨fun before text i => callAt?_exact, whole, found, ?_⟩
  have lists := firsts_eq_all ((rows source.toList).map (callsIn package.localName.toList none))
  rw [List.filterMap_map, ← List.flatMap_def, List.forall_mem_map] at lists
  rw [whole, found]
  exact lists

def ports : Package := ⟨"ports", "sdk/ports"⟩

def nestedCalls : String := "\tport := ports.Get(client, ports.Find(client, name))\n"

def brokenCalls : String := "\tport := ports.Get(client,\n\t\tports.Find(client, name))\n"

theorem ports_line : '\n' ∉ ports.localName.toList := by decide

theorem invocations_exact_ports :
    '\n' ∉ ports.localName.toList ∧
      invocations nestedCalls ports = [⟨"Get", "client", ", ports.Find(client, name))"⟩] ∧
      invocations brokenCalls ports = callsIn ports.localName.toList none brokenCalls.toList ∧
      invocations brokenCalls ports = [⟨"Get", "client", ","⟩, ⟨"Find", "client", ", name))"⟩] := by
  have single : ∀ row ∈ rows brokenCalls.toList, (callsIn ports.localName.toList none row).length ≤ 1 := by
    decide +kernel
  refine ⟨ports_line, ?_, ?_, by decide +kernel⟩
  · rw [(invocations_exact nestedCalls ports ports_line).2.2.1]
    decide +kernel
  · exact (invocations_exact brokenCalls ports ports_line).2.2.2.mpr single

-- The call in the arguments is not found.
theorem nested_call_lost :
    ports.localName.toList.all isIdentPart = true ∧
      (callsIn ports.localName.toList none nestedCalls.toList).map (·.function) = ["Get", "Find"] ∧
      (invocations nestedCalls ports).map (·.function) = ["Get"] ∧
      invocations nestedCalls ports ≠ callsIn ports.localName.toList none nestedCalls.toList := by
  decide +kernel

end Found

end CallAtlas.Sdk.Rest
