import CallAtlas.Proofs.Text.Readings
import CallAtlas.Sdk.Rest

namespace CallAtlas.Sdk.Rest

open CallAtlas.Text CallAtlas.Text.Pattern

def verbMethods : List (String × Method) :=
  [("Head", .head), ("Get", .get), ("Post", .post), ("Put", .put), ("Patch", .patch), ("Delete", .delete),
   ("DeleteWithBody", .delete), ("DeleteWithResponse", .delete), ("DeleteWithBodyResp", .delete)]

-- What stands where the URL does: a call of its builder, or a variable that holds it.
inductive Argument where
  | call
  | held

def Argument.closing : Argument → String
  | .call => "("
  | .held => ","

def Argument.source : Argument → String → UrlSource
  | .call => .builder
  | .held => .variable

-- `.Get(listURL(` or `.Get(url,`, with the verb and the name that are read.
structure VerbCall (argument : Argument) (text : List Char) (call : String × String) (rest : List Char) : Prop where
  verb : call.1 ∈ verbs
  word : call.2.toList.all isWord = true
  written : text = ".".toList ++ (call.1.toList ++ ("(".toList ++ (call.2.toList ++
    (argument.closing.toList ++ rest))))

-- `NewPager(client, listURL(` or `NewPager(client, url,`.
structure PagerCall (argument : Argument) (text : List Char) (name : String) (rest : List Char) : Prop where
  word : name.toList.all isWord = true
  written : ∃ client gap : List Char, client.all isWord = true ∧ gap.all isBlank = true ∧
    text = "NewPager(".toList ++ (client ++ (",".toList ++ (gap ++ (name.toList ++
      (argument.closing.toList ++ rest)))))

inductive Shape where
  | verb (argument : Argument)
  | pager (argument : Argument)

-- The earlier ones come first.
def Shape.all : List Shape := [.verb .call, .verb .held, .pager .call, .pager .held]

inductive Asks : Shape → List Char → Request → List Char → Prop where
  | verb {argument text verb name method rest} : VerbCall argument text (verb, name) rest →
      (verb, method) ∈ verbMethods → Asks (.verb argument) text ⟨method, argument.source name⟩ rest
  | pager {argument text name rest} : PagerCall argument text name rest →
      Asks (.pager argument) text ⟨.get, argument.source name⟩ rest

-- No request of the shape stands anywhere.
def Absent (source : String) (shape : Shape) : Prop :=
  ∀ lead text, source.toList = lead ++ text → ∀ r rest, ¬ Asks shape text r rest

def Unshaped (source : String) : Prop := ∀ shape, Absent source shape

-- The requests of the first shape that occurs, from left to right.
structure Shaped (source : String) (shape : Shape) (requests : List Request) : Prop where
  reads : ReadsAll (Asks shape) source.toList requests
  occurs : requests ≠ []
  first : ∃ earlier later, Shape.all = earlier ++ shape :: later ∧ ∀ other ∈ earlier, Absent source other

-- `name := ` with what stands behind it.
def Assigns (name : String) (text value : List Char) : Prop :=
  ∃ gap, gap.all isBlank = true ∧ text = name.toList ++ (gap ++ (":=".toList ++ value))

def AssignedHere (name : String) (before : Option Char) (text : List Char) : Prop :=
  isEdge before text = true ∧ ∃ value, Assigns name text value

-- A variable is set by the word behind its first assignment. Later ones do not count.
structure SetBy (source name builder : String) : Prop where
  filled : builder ≠ ""
  first : ∃ lead text value, source.toList = lead ++ text ∧ FirstAt (AssignedHere name) source.toList lead ∧
    Assigns name text value ∧ builder.toList = (value.dropWhile isBlank).takeWhile isWord

inductive NamesBuilder (source : String) : UrlSource → String → Prop where
  | builder {name : String} : NamesBuilder source (.builder name) name
  | held {name builder : String} : SetBy source name builder → NamesBuilder source (.variable name) builder

section Verbs

variable {verb : String} {method : Method}

theorem verbMethods_eq : verbMethods = verbs.filterMap fun v => (Method.ofVerb? v).map (v, ·) := by
  decide +kernel

theorem mem_verbMethods : (verb, method) ∈ verbMethods ↔ verb ∈ verbs ∧ Method.ofVerb? verb = some method := by
  rw [verbMethods_eq, List.mem_filterMap]
  constructor
  · rintro ⟨v, member, made⟩
    obtain ⟨m, given, pair⟩ := Option.map_eq_some_iff.mp made
    cases pair
    exact ⟨member, given⟩
  · rintro ⟨member, given⟩
    exact ⟨verb, member, by rw [given]; rfl⟩

theorem verb_known (member : verb ∈ verbs) : ∃ method, (verb, method) ∈ verbMethods := by
  have names : verbMethods.map Prod.fst = verbs := by decide
  rw [← names] at member
  obtain ⟨⟨_, method⟩, inside, rfl⟩ := List.mem_map.mp member
  exact ⟨method, inside⟩

theorem verb_bare (member : verb ∈ verbs) : '(' ∉ verb.toList := by
  revert verb
  decide

end Verbs

section Calls

variable {argument : Argument} {text rest : List Char}

theorem closing_unworded (argument : Argument) (rest : List Char) :
    (argument.closing.toList ++ rest).head?.any isWord = false := by
  cases argument with
  | call => exact (by decide : isWord '(' = false)
  | held => exact (by decide : isWord ',' = false)

theorem closing_unblank (argument : Argument) (rest : List Char) :
    (argument.closing.toList ++ rest).head?.any isBlank = false := by
  cases argument with
  | call => exact (by decide : isBlank '(' = false)
  | held => exact (by decide : isBlank ',' = false)

-- A word that is there begins with no blank.
theorem name_unblank {name : String} (word : name.toList.all isWord = true) (argument : Argument) (rest : List Char) :
    (name.toList ++ (argument.closing.toList ++ rest)).head?.any isBlank = false := by
  cases chars : name.toList with
  | nil => exact closing_unblank argument rest
  | cons c more =>
    rw [chars, List.all_cons, Bool.and_eq_true] at word
    change isBlank c = false
    rw [Bool.eq_false_iff]
    intro blank
    rw [blank_unworded blank] at word
    cases word.1

theorem verbCall_reading (argument : Argument) : Reading (VerbCall argument) where
  unique := by
    rintro text ⟨verb, name⟩ ⟨verb', name'⟩ rest left one two
    have same := List.append_cancel_left (one.written.symm.trans two.written)
    obtain ⟨verbs, behind⟩ : verb.toList = verb'.toList ∧ name.toList ++ (argument.closing.toList ++ rest) =
        name'.toList ++ (argument.closing.toList ++ left) :=
      paren_unique (verb_bare one.verb) (verb_bare two.verb) same
    obtain ⟨names, ends⟩ := run_unique one.word two.word (closing_unworded argument rest)
      (closing_unworded argument left) behind
    cases String.toList_inj.mp verbs
    cases String.toList_inj.mp names
    exact ⟨rfl, List.append_cancel_left ends⟩
  takes := by
    rintro text ⟨verb, name⟩ rest call
    refine ⟨'.', verb.toList ++ ("(".toList ++ (name.toList ++ argument.closing.toList)), ?_⟩
    rw [call.written]
    simp

theorem pagerCall_reading (argument : Argument) : Reading (PagerCall argument) where
  unique := by
    intro text name name' rest left one two
    obtain ⟨client, gap, word, blank, whole⟩ := one.written
    obtain ⟨client', gap', word', blank', whole'⟩ := two.written
    have comma : ∀ behind : List Char, (",".toList ++ behind).head?.any isWord = false :=
      fun _ => (by decide : isWord ',' = false)
    obtain ⟨_, behind⟩ := run_unique word word' (comma _) (comma _)
      (List.append_cancel_left (whole.symm.trans whole'))
    obtain ⟨_, behind⟩ := run_unique blank blank' (name_unblank one.word argument rest)
      (name_unblank two.word argument left) (List.append_cancel_left behind)
    obtain ⟨names, behind⟩ := run_unique one.word two.word (closing_unworded argument rest)
      (closing_unworded argument left) behind
    exact ⟨String.toList_inj.mp names, List.append_cancel_left behind⟩
  takes := by
    intro text name rest call
    obtain ⟨client, gap, _, _, whole⟩ := call.written
    refine ⟨'N', "ewPager(".toList ++ (client ++ (",".toList ++ (gap ++ (name.toList ++ argument.closing.toList)))), ?_⟩
    rw [whole]
    simp

theorem run_verbCall {s t : Pattern.State} (ran : run (verbCall argument.closing) s = some t) (fresh : s.groups = []) :
    ∃ call, VerbCall argument s.rest call t.rest ∧ t.groups.reverse.map String.ofList = [call.1, call.2] := by
  obtain ⟨before, text, openAt, groups⟩ := s
  cases fresh
  obtain ⟨_, _, dot, ran⟩ := run_cons_text ran
  obtain ⟨_, member, _, _, chosen, ran⟩ := run_chosen ran
  obtain ⟨verb, inside, rfl⟩ := List.mem_map.mp member
  obtain ⟨_, _, paren, ran⟩ := run_cons_text ran
  obtain ⟨name, _, _, named, word, ran⟩ := run_kept ran
  obtain ⟨_, _, closing, done⟩ := run_cons_text ran
  cases done
  dsimp only at dot chosen paren named closing
  subst dot chosen paren named closing
  refine ⟨(verb, String.ofList name), ⟨inside, ?_, ?_⟩, ?_⟩
  · simpa using word
  · simp
  · simp

theorem run_pagerCall {s t : Pattern.State} (ran : run (pagerCall argument.closing) s = some t)
    (fresh : s.groups = []) :
    ∃ name, PagerCall argument s.rest name t.rest ∧ t.groups.reverse.map String.ofList = [name] := by
  obtain ⟨before, text, openAt, groups⟩ := s
  cases fresh
  obtain ⟨_, _, pager, ran⟩ := run_cons_text ran
  obtain ⟨_, _, _, clientHere, client, ran⟩ := run_cons_many ran
  obtain ⟨_, _, comma, ran⟩ := run_cons_text ran
  obtain ⟨_, _, _, gapHere, gap, ran⟩ := run_cons_many ran
  obtain ⟨name, _, _, named, word, ran⟩ := run_kept ran
  obtain ⟨_, _, closing, done⟩ := run_cons_text ran
  cases done
  dsimp only at pager clientHere comma gapHere named closing
  subst pager clientHere comma gapHere named closing
  refine ⟨String.ofList name, ⟨?_, _, _, client, gap, ?_⟩, ?_⟩
  · simpa using word
  · simp
  · simp

theorem verbCall_readsAs (argument : Argument) :
    (verbCall argument.closing).ReadsAs (fun call => [call.1, call.2]) (VerbCall argument) := by
  refine Pattern.readsAs_of (verbCall_reading argument) (fun s t ran fresh => run_verbCall ran fresh) ?_
  intro s call rest read
  rw [run_isSome]
  exact ⟨_, read.written, _, List.mem_map_of_mem read.verb, _, rfl, _, rfl, _, _, rfl, read.word, _, rfl, trivial⟩

theorem pagerCall_readsAs (argument : Argument) :
    (pagerCall argument.closing).ReadsAs (fun name => [name]) (PagerCall argument) := by
  refine Pattern.readsAs_of (pagerCall_reading argument) (fun s t ran fresh => run_pagerCall ran fresh) ?_
  intro s name rest read
  obtain ⟨client, gap, word, blank, written⟩ := read.written
  rw [run_isSome]
  exact ⟨_, written, _, _, rfl, word, _, rfl, _, _, rfl, blank, _, _, rfl, read.word, _, rfl, trivial⟩

end Calls

def Shape.pattern : Shape → Pattern
  | .verb argument => verbCall argument.closing
  | .pager argument => pagerCall argument.closing

def Shape.request? : Shape → Match → Option Request
  | .verb argument => verbRequest argument.source
  | .pager argument => pagerRequest argument.source

section Shapes

variable {shape : Shape} {source : String} {requests : List Request}

theorem asks_verb (argument : Argument) (text : List Char) (r : Request) (rest : List Char) :
    Asks (.verb argument) text r rest ↔ ∃ call, VerbCall argument text call rest ∧
      (⟨(Method.ofVerb? call.1).getD .get, argument.source call.2⟩ : Request) = r := by
  constructor
  · intro asks
    cases asks with
    | verb call given => exact ⟨_, call, by rw [(mem_verbMethods.mp given).2]; rfl⟩
  · rintro ⟨call, read, rfl⟩
    obtain ⟨method, given⟩ := verb_known read.verb
    rw [(mem_verbMethods.mp given).2]
    exact .verb read given

theorem asks_pager (argument : Argument) (text : List Char) (r : Request) (rest : List Char) :
    Asks (.pager argument) text r rest ↔ ∃ name, PagerCall argument text name rest ∧
      (⟨.get, argument.source name⟩ : Request) = r := by
  constructor
  · intro asks
    cases asks with
    | pager call => exact ⟨_, call, rfl⟩
  · rintro ⟨name, read, rfl⟩
    exact .pager read

theorem asks_reading (shape : Shape) : Reading (Asks shape) := by
  cases shape with
  | verb argument => exact (verbCall_reading argument).map (asks_verb argument)
  | pager argument => exact (pagerCall_reading argument).map (asks_pager argument)

-- What is made of the groups of each match is made of the calls that are read.
theorem requests_read {α : Type} {p : Pattern} {calls : List α} {groups : α → List String}
    {made : α → Request} (given : List String → Option Request)
    (kept : (p.findAll source).map (·.groups) = calls.map groups)
    (each : ∀ call ∈ calls, given (groups call) = some (made call)) :
    (p.findAll source).map (fun m => given m.groups) = (calls.map made).map some :=
  calc (p.findAll source).map (fun m => given m.groups)
    _ = ((p.findAll source).map (·.groups)).map given := List.map_map.symm
    _ = calls.map (given ∘ groups) := by rw [kept, List.map_map]
    _ = calls.map (some ∘ made) := List.map_congr_left each
    _ = (calls.map made).map some := List.map_map.symm

theorem shape_reads (shape : Shape) (source : String) :
    ∃ requests, ReadsAll (Asks shape) source.toList requests ∧
      (shape.pattern.findAll source).map shape.request? = requests.map some := by
  cases shape with
  | verb argument =>
    obtain ⟨calls, reads, kept⟩ := (verbCall_readsAs argument).findAll_reads (verbCall_reading argument) source
    let given (groups : List String) : Option Request :=
      (Method.ofVerb? (groups.getD 0 "")).map fun method => ⟨method, argument.source (groups.getD 1 "")⟩
    refine ⟨_, reads.map (asks_verb argument), requests_read given kept ?_⟩
    intro call member
    obtain ⟨_, _, read⟩ := reads.mem member
    obtain ⟨method, known⟩ := verb_known read.verb
    simp [given, (mem_verbMethods.mp known).2]
  | pager argument =>
    obtain ⟨calls, reads, kept⟩ := (pagerCall_readsAs argument).findAll_reads (pagerCall_reading argument) source
    let given (groups : List String) : Option Request := some ⟨.get, argument.source (groups.getD 0 "")⟩
    exact ⟨_, reads.map (asks_pager argument), requests_read given kept fun _ _ => rfl⟩

def Shape.requests? (source : String) (shape : Shape) : Option (List Request) :=
  match shape.pattern.findAll source with
  | [] => none
  | found => some (found.filterMap shape.request?)

theorem requests?_eq (source : String) : requests? source = Shape.all.findSome? (Shape.requests? source) := rfl

theorem requestsOf_none : shape.requests? source = none ↔ Absent source shape := by
  obtain ⟨requests, reads, kept⟩ := shape_reads shape source
  have absent := reads.nil_iff (asks_reading shape)
  simp only [ReadHere, not_exists] at absent
  rw [Absent, ← absent, ← List.map_eq_nil_iff (f := some), ← kept, List.map_eq_nil_iff, Shape.requests?]
  cases shape.pattern.findAll source <;> simp

theorem requestsOf_some : shape.requests? source = some requests ↔
    ReadsAll (Asks shape) source.toList requests ∧ requests ≠ [] := by
  obtain ⟨calls, reads, kept⟩ := shape_reads shape source
  have filled : shape.pattern.findAll source = [] ↔ calls = [] := by
    rw [← List.map_eq_nil_iff (f := shape.request?), kept, List.map_eq_nil_iff]
  have made : (shape.pattern.findAll source).filterMap shape.request? = calls := by
    simpa using congrArg (List.filterMap id) kept
  have read : ReadsAll (Asks shape) source.toList requests ↔ calls = requests :=
    ⟨fun reads' => reads.unique (asks_reading shape) reads', fun same => same ▸ reads⟩
  rw [read]
  unfold Shape.requests?
  cases found : shape.pattern.findAll source with
  | nil =>
    refine iff_of_false nofun ?_
    rintro ⟨rfl, occurs⟩
    exact occurs (filled.mp found)
  | cons m more =>
    have occurs : calls ≠ [] := by simp [← filled, found]
    change some ((m :: more).filterMap shape.request?) = some requests ↔ _
    rw [← found, made, Option.some.injEq, iff_self_and]
    rintro rfl
    exact occurs

-- A source has the requests of the first shape that occurs in it.
theorem requests?_none : requests? source = none ↔ Unshaped source := by
  simp only [requests?_eq, List.findSome?_eq_none_iff, requestsOf_none, Unshaped]
  refine ⟨fun none shape => none shape ?_, fun none shape _ => none shape⟩
  rcases shape with argument | argument <;> cases argument <;> simp [Shape.all]

theorem requests?_some : requests? source = some requests ↔ ∃ shape, Shaped source shape requests := by
  simp only [requests?_eq, List.findSome?_eq_some_iff, requestsOf_none, requestsOf_some]
  constructor
  · rintro ⟨earlier, shape, later, split, ⟨reads, occurs⟩, before⟩
    exact ⟨shape, reads, occurs, earlier, later, split, before⟩
  · rintro ⟨shape, reads, occurs, earlier, later, split, before⟩
    exact ⟨earlier, shape, later, split, ⟨reads, occurs⟩, before⟩

end Shapes

section Variables

variable {name source builder : String} {before : Option Char} {text value value' : List Char}

def assignment (name : String) : Pattern :=
  [.edge, word name, .many isBlank, word ":=", .many isBlank, .opens, .many isWord, .closes]

theorem Assigns.unique (one : Assigns name text value) (two : Assigns name text value') : value = value' := by
  obtain ⟨gap, blank, whole⟩ := one
  obtain ⟨gap', blank', whole'⟩ := two
  have colon : ∀ behind : List Char, (":=".toList ++ behind).head?.any isBlank = false :=
    fun _ => (by decide : isBlank ':' = false)
  obtain ⟨_, ends⟩ := run_unique blank blank' (colon _) (colon _) (List.append_cancel_left (whole.symm.trans whole'))
  exact List.append_cancel_left ends

theorem assignedHere_exact :
    (run (assignment name) { before, rest := text }).isSome = true ↔ AssignedHere name before text := by
  rw [run_isSome]
  constructor
  · rintro ⟨edge, _, rfl, gap, _, rfl, blank, value, rfl, _⟩
    exact ⟨edge, value, gap, blank, rfl⟩
  · rintro ⟨edge, value, gap, blank, rfl⟩
    exact ⟨edge, _, rfl, gap, _, rfl, blank, value, rfl, [], value, rfl, rfl, [], value, rfl, rfl, trivial⟩

theorem run_assignment {s t : Pattern.State} (ran : run (assignment name) s = some t) (fresh : s.groups = []) :
    ∃ value, Assigns name s.rest value ∧ t.groups = [(value.dropWhile isBlank).takeWhile isWord] := by
  obtain ⟨before, text, openAt, groups⟩ := s
  cases fresh
  obtain ⟨_, edge, ran⟩ := run_cons ran
  cases edge
  obtain ⟨_, _, named, ran⟩ := run_cons_text ran
  obtain ⟨_, _, _, gapHere, gap, ran⟩ := run_cons_many ran
  obtain ⟨_, _, assigned, ran⟩ := run_cons_text ran
  dsimp only at named gapHere assigned
  subst named gapHere assigned
  refine ⟨_, ⟨_, gap, rfl⟩, ?_⟩
  rw [run, manyThen_whole _ (.inl ?_), run_group (.inl rfl)] at ran
  · cases ran
    rfl
  · rw [run_group (.inl rfl)]
    rfl

theorem variableBuilder?_iff : variableBuilder? name source = some builder ↔ SetBy source name builder := by
  have unfolded : variableBuilder? name source =
      ((assignment name).find? source).bind fun m => if m.group 0 == "" then none else some (m.group 0) := by
    unfold variableBuilder? assignment
    dsimp only
    generalize Pattern.find? _ source = found
    cases found <;> rfl
  rw [unfolded, Option.bind_eq_some_iff]
  constructor
  · rintro ⟨m, found, given⟩
    obtain ⟨lead, text, whole, first, here⟩ := (find?_some fun _ _ => assignedHere_exact).mp found
    obtain ⟨t, ran, rfl⟩ := Option.map_eq_some_iff.mp here
    obtain ⟨value, assigns, groups⟩ := run_assignment ran rfl
    split at given
    · cases given
    · rename_i filled
      cases given
      refine ⟨by simpa using filled, lead, text, value, whole, first, assigns, ?_⟩
      simp [Match.group, groups]
  · rintro ⟨filled, lead, text, value, whole, first, assigns, taken⟩
    obtain ⟨m, text', whole', found, here⟩ := find?_at (fun _ _ => assignedHere_exact) first
    cases List.append_cancel_left (whole.symm.trans whole')
    obtain ⟨t, ran, rfl⟩ := Option.map_eq_some_iff.mp here
    obtain ⟨value', assigns', groups⟩ := run_assignment ran rfl
    cases assigns.unique assigns'
    refine ⟨_, found, ?_⟩
    have group : String.ofList ((value.dropWhile isBlank).takeWhile isWord) = builder := by
      rw [← taken, String.ofList_toList]
    simp [Match.group, groups, group, filled]

end Variables

theorem builder?_iff {r : Request} {source builder : String} :
    r.builder? source = some builder ↔ NamesBuilder source r.source builder := by
  unfold Request.builder?
  cases r.source with
  | builder name =>
    constructor
    · rintro ⟨⟩
      exact .builder
    · rintro ⟨⟩
      rfl
  | _ name =>
    rw [variableBuilder?_iff]
    constructor
    · exact .held
    · intro builds
      cases builds with
      | held given => exact given

end CallAtlas.Sdk.Rest
