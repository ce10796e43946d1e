import CallAtlas.Proofs.Go.Nesting
import CallAtlas.Proofs.Text.Calls
import CallAtlas.Proofs.Text.Captures
import CallAtlas.Proofs.Text.Spans
import CallAtlas.Proofs.Trace.Chains

namespace CallAtlas.Trace

open CallAtlas.Text CallAtlas.Sdk CallAtlas.Go

def clientType : List Char := "*golangsdk.ServiceClient".toList

def typedClient (receiver : String) : List Char := receiver.toList ++ ' ' :: clientType

-- The parameters of a function, the one at a place a client of this name.
structure TakesClient (params receiver : String) (parameters : List (List Char)) (i : Nat) : Prop where
  listed : ∃ inner, params.toList = '(' :: (inner ++ [')']) ∧ elements? inner = some parameters
  named : receiver.toList.all isNamePart = true
  typed : ∃ before after, parameters[i]? = some (before ++ (typedClient receiver ++ after)) ∧
    before.all isBlank = true ∧ after.all isBlank = true

-- The first other function that mentions a call, on one line with nothing closing behind it. `later`
-- are the functions after it and `arguments` those of the call.
structure CallSite (functions : List Go.Function) (callee : String) (g : Go.Function)
    (later : List Go.Function) (arguments : List (List Char)) : Prop where
  other : g.name ≠ callee
  first : ∃ before, functions = before ++ g :: later ∧ ∀ h ∈ before, h.name ≠ callee →
    ∀ rest, ¬ Calls none h.source.toList callee.toList rest
  written : ∃ inner behind, Calls none g.source.toList callee.toList (inner ++ ')' :: behind) ∧
    (∀ rest, Calls none g.source.toList callee.toList rest →
      rest.length ≤ (inner ++ ')' :: behind).length) ∧
    '\n' ∉ inner ∧ ')' ∉ behind.takeWhile Pattern.notNewline ∧ elements? inner = some arguments

-- An argument as it is handed on, and what is handed on of a piece of text.
def passedOn (argument : List Char) : String := String.ofList (trimBy isSpace argument)

def cutOut (piece : List Char) : String := String.ofList (trimBy isClose (trimBy isSpace piece))

def piecesOf (elements : List (List Char)) : List (List Char) := elements.flatMap (splitBy comma)

-- The trace goes on with this argument, or it fails.
def Right (argument : List Char) (g : Go.Function) (result : Step) : Prop :=
  result = .goTo (passedOn argument) g ∨ ∃ miss, result = .done (.error miss)

-- A text has the name with the type of a client.
def Mentions (receiver : String) (text : List Char) : Prop :=
  ∃ blank, isBlank blank = true ∧ receiver.toList ++ blank :: clientType <:+: text

section Calls

variable {callee : String} {place : Nat} {before : Option Char} {inner behind rest : List Char} {m : Match}

theorem callPattern_mentions (found : (callPattern callee).matchHere place before rest = some m) :
    Pattern.isEdge before rest = true ∧ ∃ after, rest = callee.toList ++ '(' :: after := by
  obtain ⟨t, ran, _⟩ := Option.map_eq_some_iff.mp found
  obtain ⟨_, edge, ran⟩ := Pattern.run_cons ran
  cases edge with
  | edge here =>
    obtain ⟨_, _, whole, ran⟩ := Pattern.run_cons_text ran
    obtain ⟨_, _, opened, _⟩ := Pattern.run_cons_text ran
    dsimp only at whole opened
    rw [opened] at whole
    exact ⟨here, _, whole⟩

theorem callPattern_isSome (edge : Pattern.isEdge before (callee.toList ++ '(' :: (inner ++ ')' :: behind)) = true)
    (line : '\n' ∉ inner) :
    ((callPattern callee).matchHere place before
      (callee.toList ++ '(' :: (inner ++ ')' :: behind))).isSome = true := by
  have fits : inner.all Pattern.notNewline = true :=
    List.all_eq_true.mpr fun c member => bne_iff_ne.mpr fun same => line (same ▸ member)
  rw [Pattern.matchHere, Option.isSome_map, callPattern]
  simp only [Pattern.run, edge, if_true, word, passText_append]
  have opened : Pattern.passText "(".toList (callee.toList.getLast?.or before) ('(' :: (inner ++ ')' :: behind)) =
      some (some '(', inner ++ ')' :: behind) := rfl
  simp only [opened]
  refine Pattern.manyThen_finds fits ?_
  rfl

-- The arguments reach to the last parenthesis of the line.
theorem callPattern_takes (found : (callPattern callee).matchHere place before
      (callee.toList ++ '(' :: (inner ++ ')' :: behind)) = some m)
    (line : '\n' ∉ inner) (last : ')' ∉ behind.takeWhile Pattern.notNewline) :
    (m.group 0).toList = inner := by
  obtain ⟨_, ⟨afterName, name, text, opened, rfl⟩, takes⟩ :=
    Pattern.group_takes [.edge, word callee, word "("] [word ")"] (fun s => Pattern.run_word) found
  have first : Pattern.closings [.edge, word callee, word "("] = 0 := rfl
  rw [first] at takes
  have whole : text = inner ++ ')' :: behind := by
    rw [opened] at name
    exact (List.cons.inj (List.append_cancel_left name)).2.symm
  subst whole
  obtain ⟨rest, cut, closed⟩ := takes.closed
  have enough := takes.last inner (')' :: behind) rfl line ⟨behind, rfl⟩
  obtain ⟨more, split⟩ : inner <+: (m.group 0).toList :=
    List.prefix_of_prefix_length_le (List.prefix_append inner _) ⟨rest, cut.symm⟩ enough
  cases more with
  | nil => simpa using split.symm
  | cons c more =>
    -- A longer text would end at a parenthesis behind the call.
    have inLine := takes.inLine
    rw [← split] at cut inLine
    rw [List.append_assoc] at cut
    obtain ⟨_, further⟩ := List.cons.inj (List.append_cancel_left cut)
    obtain ⟨after, rfl⟩ := closed
    have fits : ∀ d ∈ more, Pattern.notNewline d = true := fun d member =>
      bne_iff_ne.mpr fun same =>
        inLine (List.mem_append_right _ (List.mem_cons_of_mem _ (same ▸ member)))
    have whole : behind = more ++ ')' :: after := further
    rw [whole, List.takeWhile_append_of_pos fits] at last
    exact absurd (List.mem_append_right more List.mem_cons_self) last

end Calls

section Callers

variable {functions later : List Go.Function} {callee : String} {g : Go.Function}
  {arguments : List (List Char)} {position : Nat}

theorem no_passes {h : Go.Function} (silent : ∀ rest, ¬ Calls none h.source.toList callee.toList rest)
    (argument : String) : ¬ Passes callee position h argument := by
  rintro ⟨m, _, found, _⟩
  obtain ⟨passed, rest, whole, here⟩ := Pattern.firstFrom_place found
  obtain ⟨edge, after, rfl⟩ := callPattern_mentions here
  exact silent after ⟨passed, whole, edge⟩

namespace CallSite

variable (site : CallSite functions callee g later arguments)

include site

theorem find : ∃ m, (callPattern callee).find? g.source = some m ∧
    (splitBy comma (m.group 0).toList) = piecesOf arguments := by
  obtain ⟨inner, behind, ⟨lead, whole, edge⟩, latest, line, last, split⟩ := site.written
  obtain ⟨m, here⟩ := Option.isSome_iff_exists.mp
    (@callPattern_isSome callee (0 + lead.length) _ inner behind edge line)
  refine ⟨m, ?_, ?_⟩
  · rw [Pattern.find?, whole]
    refine Pattern.firstFrom_first here fun earlier c more cut place => ?_
    rw [Option.eq_none_iff_forall_ne_some]
    intro other found
    obtain ⟨edge', after, name⟩ := callPattern_mentions found
    have called : Calls none g.source.toList callee.toList after := by
      refine ⟨earlier, ?_, name ▸ edge'⟩
      rw [whole, cut, ← name]
      simp
    have bound := latest after called
    have sizes := congrArg List.length name
    simp only [List.length_cons, List.length_append] at sizes bound
    omega
  · rw [callPattern_takes here line last]
    exact splitBy_elements split

theorem argument?_exact (position : Nat) :
    argument? callee position g = (piecesOf arguments)[position - 1]?.map cutOut := by
  obtain ⟨m, found, pieces⟩ := site.find
  have cut : split ',' (m.group 0) = (piecesOf arguments).map String.ofList := by
    rw [← pieces]
    rfl
  rw [argument?, found]
  dsimp only
  rw [cut, List.getElem?_map, Option.map_map]
  refine congrArg (Option.map · _) (funext fun piece => ?_)
  simp only [Function.comp_apply, trimMatches, String.toList_ofList]
  rfl

-- Functions before the call pass nothing, so it decides unless it has too few pieces.
theorem caller?_exact (position : Nat) :
    caller? functions callee position =
      (((piecesOf arguments)[position - 1]?.map cutOut).map (g, ·)).or (caller? later callee position) := by
  obtain ⟨before, whole, silent⟩ := site.first
  have nothing : caller? before callee position = none :=
    Trace.caller?_none.mpr fun h member other => no_passes (silent h member other)
  rw [caller?] at nothing
  rw [caller?, whole, List.findSome?_append, nothing, Option.none_or, List.findSome?_cons,
    if_neg (by simpa using site.other), site.argument?_exact position]
  cases (piecesOf arguments)[position - 1]? <;> rfl

end CallSite

end Callers

section Parameters

variable {params receiver : String} {parameters : List (List Char)} {i position : Nat}

-- The first place where the name has the type decides, and the commas in front of it count.
theorem parameterClient?_place (found : Rest.parameterClient? receiver params = some (.viaCaller position)) :
    ∃ lead blank after, params.toList = lead ++ ((receiver.toList ++ blank :: clientType) ++ after) ∧
      isBlank blank = true ∧ position = lead.count ',' + 1 := by
  obtain ⟨m, first, same⟩ := Option.map_eq_some_iff.mp found
  obtain ⟨lead, rest, whole, here⟩ := Pattern.firstFrom_place first
  obtain ⟨t, ran, rfl⟩ := Option.map_eq_some_iff.mp here
  have leads : ∃ afterName, rest = receiver.toList ++ afterName ∧ ∃ blank afterBlank,
      afterName = blank :: afterBlank ∧ isBlank blank = true ∧ ∃ after, afterBlank = clientType ++ after ∧
        after = t.rest := (Pattern.run_exact ran).leads
  obtain ⟨afterName, name, blank, afterBlank, spaced, isBlank, after, typed, _⟩ := leads
  refine ⟨lead, blank, after, ?_, isBlank, ?_⟩
  · simp only [whole, name, spaced, typed, List.append_assoc, List.cons_append]
  · cases same
    simp only [whole, Nat.zero_add, List.take_left]

def clientPattern (receiver : String) : Pattern :=
  [.edge, word receiver, .one isBlank, word "*golangsdk.ServiceClient", .edge]

theorem clientPattern_isSome {place : Nat} {before : Option Char} {after : List Char}
    (begins : receiver.toList.head?.any isWord = true) (start : before.any isWord = false)
    (finish : after.head?.any isWord = false) :
    ((clientPattern receiver).matchHere place before
      (receiver.toList ++ ' ' :: (clientType ++ after))).isSome = true := by
  have typed : Pattern.passText "*golangsdk.ServiceClient".toList (some ' ') (clientType ++ after) =
      some (some 't', after) := passText_append clientType after (some ' ')
  have opens : Pattern.isEdge before (receiver.toList ++ ' ' :: (clientType ++ after)) = true := by
    obtain ⟨c, first, isWord⟩ := (Option.any_eq_true _ _).mp begins
    simp [Pattern.isEdge, start, List.head?_append, first, isWord]
  have closes : Pattern.isEdge (some 't') after = true := by
    rw [Pattern.isEdge, finish]
    rfl
  have space : isBlank ' ' = true := by decide
  rw [Pattern.matchHere, Option.isSome_map, clientPattern]
  simp only [Pattern.run, opens, if_true, word, passText_append, space, typed, closes, Option.isSome_some]

theorem namePart_not {c : Char} (other : isNamePart c = false) {name : String}
    (named : name.toList.all isNamePart = true) : c ∉ name.toList := by
  intro member
  rw [List.all_eq_true.mp named c member] at other
  cases other

theorem blank_not {c : Char} (other : isBlank c = false) {text : List Char}
    (blank : text.all isBlank = true) : c ∉ text := by
  intro member
  rw [List.all_eq_true.mp blank c member] at other
  cases other

-- No word reaches into a parameter from the front or from behind.
theorem front_unworded {front before : List Char} (separated : front = [] ∨ front.getLast? = some ',')
    (blank : before.all isBlank = true) :
    (('(' :: (front ++ before)).getLast?.or none).any isWord = false := by
  rw [Option.or_none, List.getLast?_cons]
  rcases List.eq_nil_or_concat before with rfl | ⟨blanks, c, rfl⟩
  · rw [List.append_nil]
    rcases separated with rfl | last
    · decide
    · rw [last]
      decide
  · have member : c ∈ blanks.concat c := by simp
    have apart := blank_unworded (List.all_eq_true.mp blank c member)
    rw [List.concat_eq_append, ← List.append_assoc, List.getLast?_concat]
    exact apart

theorem behind_unworded {after behind : List Char} (blank : after.all isBlank = true)
    (ends : ∀ c, behind.head? = some c → c = ',') : (after ++ (behind ++ [')'])).head?.any isWord = false := by
  cases after with
  | nil =>
    cases behind with
    | nil => decide
    | cons c behind =>
      obtain rfl := ends c rfl
      exact (by decide : isWord ',' = false)
  | cons c after => exact blank_unworded (List.all_eq_true.mp blank c List.mem_cons_self)

-- What has no bracket stands between those around a list.
theorem within_brackets {inner lead part after : List Char} (unopened : '(' ∉ part) (unclosed : ')' ∉ part)
    (filled : part ≠ []) (whole : '(' :: (inner ++ [')']) = lead ++ (part ++ after)) :
    ∃ lead' after', lead = '(' :: lead' ∧ inner = lead' ++ (part ++ after') := by
  cases lead with
  | nil =>
    obtain ⟨c, more, rfl⟩ := List.exists_cons_of_ne_nil filled
    obtain ⟨rfl, _⟩ := List.cons.inj whole
    exact absurd List.mem_cons_self unopened
  | cons c lead =>
    obtain ⟨rfl, further⟩ := List.cons.inj whole
    replace further : inner ++ [')'] = lead ++ (part ++ after) := further
    rcases List.eq_nil_or_concat after with rfl | ⟨front, d, rfl⟩
    · rw [List.append_nil] at further
      have last := congrArg List.getLast? further
      rw [List.getLast?_concat, List.getLast?_append_of_ne_nil _ filled] at last
      exact absurd (List.mem_of_getLast? last.symm) unclosed
    · rw [List.concat_eq_append, ← List.append_assoc part, ← List.append_assoc lead] at further
      exact ⟨lead, front, rfl, (List.append_inj' further rfl).1⟩

namespace TakesClient

variable (takes : TakesClient params receiver parameters i)

include takes

theorem parameter_whole : ∃ p, parameters[i]? = some p ∧ ',' ∉ p := by
  obtain ⟨before, after, place, front, behind⟩ := takes.typed
  refine ⟨_, place, fun member => ?_⟩
  have noType : ',' ∉ ' ' :: clientType := by decide
  rcases List.mem_append.mp member with member | member
  · exact blank_not (by decide) front member
  · rcases List.mem_append.mp member with member | member
    · rcases List.mem_append.mp member with member | member
      · exact namePart_not (by decide) takes.named member
      · exact noType member
    · exact blank_not (by decide) behind member

-- If no other parameter has the name with the type, the commas in front of the parameter count.
theorem position_eq (alone : ∀ j p, parameters[j]? = some p → j ≠ i → ¬ Mentions receiver p)
    (found : Rest.parameterClient? receiver params = some (.viaCaller position)) :
    position = i + nested parameters i + 1 := by
  obtain ⟨lead, blank, after, whole, isBlank, rfl⟩ := parameterClient?_place found
  obtain ⟨inner, bracketed, split⟩ := takes.listed
  have absent : ∀ c, isNamePart c = false → Text.isBlank c = false → c ∉ clientType →
      c ∉ receiver.toList ++ blank :: clientType := by
    intro c namePart blankless other member
    rcases List.mem_append.mp member with member | member
    · exact namePart_not namePart takes.named member
    · rcases List.mem_cons.mp member with rfl | member
      · rw [isBlank] at blankless
        cases blankless
      · exact other member
  have noComma := absent ',' (by decide) (by decide) (by decide)
  obtain ⟨lead', after', rfl, inside⟩ := within_brackets (absent '(' (by decide) (by decide) (by decide))
    (absent ')' (by decide) (by decide) (by decide)) (by simp) (bracketed.symm.trans whole)
  obtain ⟨piece, place, around⟩ := piece_around noComma lead' after'
  rw [← inside, splitBy_elements split] at place
  obtain ⟨j, p, k, known, part, count⟩ := element_of_piece place
  have here : j = i := by
    refine Decidable.byContradiction fun other => alone j p known other ⟨blank, isBlank, ?_⟩
    exact around.trans (piece_within (List.mem_of_getElem? part))
  subst here
  obtain ⟨_, same, single⟩ := takes.parameter_whole
  cases known.symm.trans same
  rw [splitBy_alone single] at part
  obtain ⟨short, _⟩ := List.getElem?_eq_some_iff.mp part
  have counted : ('(' :: lead').count ',' = lead'.count ',' := List.count_cons_of_ne (by decide)
  simp only [List.length_singleton] at short
  omega

-- The parameter is seen, unless its name begins with a character that no word has.
theorem parameterClient?_exists (begins : receiver.toList.head?.any isWord = true) :
    ∃ position, Rest.parameterClient? receiver params = some (.viaCaller position) := by
  obtain ⟨inner, bracketed, split⟩ := takes.listed
  obtain ⟨before, after, place, blankFront, blankBehind⟩ := takes.typed
  obtain ⟨front, behind, listed, separated, ends⟩ := element_around split place
  have whole : params.toList = '(' :: (front ++ before) ++
      (receiver.toList ++ ' ' :: (clientType ++ (after ++ (behind ++ [')'])))) := by
    rw [bracketed, listed, typedClient]
    simp only [List.append_assoc, List.cons_append]
  have seen : ((clientPattern receiver).firstFrom 0 none _).isSome = true :=
    Pattern.firstFrom_isSome _ fun place => clientPattern_isSome begins
      (front_unworded separated blankFront) (behind_unworded blankBehind ends)
  rw [← whole] at seen
  obtain ⟨m, found⟩ := Option.isSome_iff_exists.mp seen
  exact ⟨_, congrArg (Option.map _) found⟩

end TakesClient

end Parameters

section Steps

variable {c : Convention} {functions later : List Go.Function} {f g : Go.Function}
  {params receiver : String} {parameters arguments : List (List Char)} {a piece : List Char}
  {i position : Nat}

theorem mem_cutOut (piece : List Char) : '(' ∈ (cutOut piece).toList ↔ '(' ∈ piece := by
  rw [cutOut, String.toList_ofList, mem_trimBy (by decide), mem_trimBy (by decide)]

namespace CallSite

variable (site : CallSite functions f.name g later arguments)
  (parameter : parameter? c receiver f = some (.viaCaller position))

include site parameter

omit site in
theorem step_parameter : (step c functions receiver f).value = (stepToCaller functions receiver f position).value :=
  congrArg Noted.value (step_viaCaller (x := ⟨receiver, f⟩) parameter)

theorem step_piece (found : (piecesOf arguments)[position - 1]? = some piece) :
    (step c functions receiver f).value =
      if '(' ∈ piece then .done (.error (.complexArgument g.name (cutOut piece)))
      else .goTo (cutOut piece) g := by
  have caller : caller? functions f.name position = some (g, cutOut piece) := by
    rw [site.caller?_exact, found]
    rfl
  rw [step_parameter parameter, stepToCaller, caller]
  simp only [containsChar, List.contains_iff_mem, mem_cutOut]
  split <;> rfl

theorem right_piece (found : (piecesOf arguments)[position - 1]? = some piece) :
    Right a g (step c functions receiver f).value ↔ '(' ∈ piece ∨ cutOut piece = passedOn a := by
  rw [site.step_piece parameter found]
  by_cases call : '(' ∈ piece
  · simp only [call, if_true, true_or, iff_true]
    exact .inr ⟨_, rfl⟩
  · simp only [call, if_false, false_or]
    constructor
    · rintro (same | ⟨_, impossible⟩)
      · exact (Step.goTo.inj same).1
      · cases impossible
    · intro same
      exact .inl (same ▸ rfl)

-- With too few pieces the functions after it are asked.
theorem right_later (missing : (piecesOf arguments)[position - 1]? = none) :
    Right a g (step c functions receiver f).value ↔
      ∀ h other, FirstCaller later f.name position h other → '(' ∈ other.toList := by
  have caller : caller? functions f.name position = caller? later f.name position := by
    rw [site.caller?_exact, missing]
    rfl
  rw [step_parameter parameter, stepToCaller, caller]
  cases found : caller? later f.name position with
  | none =>
    refine iff_of_true (.inr ⟨_, rfl⟩) fun h other first => ?_
    rw [Trace.caller?_exact.mpr first] at found
    cases found
  | some passed =>
    obtain ⟨h, other⟩ := passed
    have first := Trace.caller?_exact.mp found
    have elsewhere : h ≠ g := by
      rintro rfl
      have passes := Trace.argument?_exact.mpr first.passes
      rw [site.argument?_exact, missing] at passes
      cases passes
    simp only [containsChar, List.contains_iff_mem]
    by_cases call : '(' ∈ other.toList
    · rw [if_pos call]
      refine iff_of_true (.inr ⟨_, rfl⟩) fun h' other' first' => ?_
      cases (Trace.caller?_exact.mpr first').symm.trans found
      exact call
    · rw [if_neg call]
      refine iff_of_false ?_ fun calls => call (calls h other first)
      rintro (same | ⟨_, impossible⟩)
      · exact elsewhere (Step.goTo.inj same).2
      · cases impossible

end CallSite

-- A client parameter is traced to the piece between commas at its place, counted by commas. That is
-- its argument if no other parameter mentions it, as many commas are nested in front of the argument
-- as of the parameter, and none in the argument.
theorem passed_exact (rest : c.kind = .rest) (takes : TakesClient f.params receiver parameters i)
    (site : CallSite functions f.name g later arguments) (argument : arguments[i]? = some a) :
    (receiver.toList.head?.any isWord = true →
      ∃ position, parameter? c receiver f = some (.viaCaller position)) ∧
    ∀ position, parameter? c receiver f = some (.viaCaller position) →
      (∀ piece, (piecesOf arguments)[position - 1]? = some piece →
        (Right a g (step c functions receiver f).value ↔ '(' ∈ piece ∨ cutOut piece = passedOn a)) ∧
      ((piecesOf arguments)[position - 1]? = none →
        (Right a g (step c functions receiver f).value ↔
          ∀ h other, FirstCaller later f.name position h other → '(' ∈ other.toList)) ∧
      ((∀ j p, parameters[j]? = some p → j ≠ i → ¬ Mentions receiver p) →
        position = i + nested parameters i + 1 ∧
        (nested parameters i = nested arguments i → ',' ∉ a →
          (step c functions receiver f).value =
            if '(' ∈ a then .done (.error (.complexArgument g.name (cutOut a)))
            else .goTo (passedOn a) g)) := by
  have asked : parameter? c receiver f = Rest.parameterClient? receiver f.params := by
    simp only [parameter?, Convention.parameterClient?, rest]
  refine ⟨fun begins => ?_, fun position parameter => ⟨?_, ?_, fun alone => ?_⟩⟩
  · rw [asked]
    exact takes.parameterClient?_exists begins
  · exact fun piece found => site.right_piece parameter found
  · exact fun missing => site.right_later parameter missing
  · have counted := takes.position_eq alone (asked.symm.trans parameter)
    refine ⟨counted, fun balanced whole => ?_⟩
    have place : (piecesOf arguments)[position - 1]? = some a := by
      rw [counted, balanced]
      exact piece_of_element argument whole
    rw [site.step_piece parameter place]
    split
    · rfl
    · rename_i plain
      obtain ⟨inner, behind, _, _, _, _, split⟩ := site.written
      have out := elements_leadsOut split (List.mem_of_getElem? argument)
      rw [cutOut, element_trimmed out plain]
      rfl

end Steps

def handsOn (arguments : String) : Go.Function :=
  declared "create" "()" ("\x7b\n\twait(" ++ arguments ++ ")\n\x7d")

def waited : List (List Char) := ["d *D".toList, " client *golangsdk.ServiceClient".toList]

def waitCalling : Go.Function :=
  declared "wait" "(f func(a, b int), client *golangsdk.ServiceClient)" "\x7b\x7d"

def waitedCalling : List (List Char) := ["f func(a, b int)".toList, " client *golangsdk.ServiceClient".toList]

theorem wait_takes : TakesClient wait.params "client" waited 1 where
  listed := ⟨"d *D, client *golangsdk.ServiceClient".toList, by decide +kernel, by decide +kernel⟩
  named := by decide +kernel
  typed := ⟨[' '], [], by decide +kernel, by decide, rfl⟩

theorem waitCalling_takes : TakesClient waitCalling.params "client" waitedCalling 1 where
  listed := ⟨"f func(a, b int), client *golangsdk.ServiceClient".toList, by decide +kernel, by decide +kernel⟩
  named := by decide +kernel
  typed := ⟨[' '], [], by decide +kernel, by decide, rfl⟩

def opening : List Char := "func create()\x7b\n\t".toList

theorem handsOn_site {f : Go.Function} {text : String} {arguments : List (List Char)} (name : f.name = "wait")
    (clear : ∀ k < opening.length, ("wait".toList ++ ['(']).isPrefixOf ((handsOn text).source.toList.drop k) = false)
    (line : '\n' ∉ text.toList) (split : elements? text.toList = some arguments) :
    CallSite [f, handsOn text] f.name (handsOn text) [] arguments where
  other := by
    rw [name]
    exact (by decide : "create" ≠ "wait")
  first := by
    refine ⟨[f], rfl, fun h member other => ?_⟩
    cases List.mem_singleton.mp member
    exact absurd rfl other
  written := by
    have source : (handsOn text).source.toList =
        opening ++ ("wait".toList ++ '(' :: (text.toList ++ ')' :: "\n\x7d".toList)) := by
      simp only [handsOn, declared, String.toList_append, List.append_assoc]
      rfl
    rw [name]
    exact ⟨text.toList, "\n\x7d".toList, ⟨opening, source, rfl⟩, fun rest called => called.length_le source clear,
      line, by decide +kernel, split⟩

theorem waited_alone : ∀ j p, waited[j]? = some p → j ≠ 1 → ¬ Mentions "client" p := by
  rintro (_ | _ | j) p place other ⟨blank, _, inside⟩
  · cases place
    have short := inside.length_le
    rw [List.length_append, List.length_cons] at short
    exact absurd short (by decide)
  · exact other rfl
  · cases place

theorem wait_second : parameter? shared "client" wait = some (.viaCaller 2) := by decide +kernel

theorem nested_site : CallSite [wait, handsOn "port(d, e), v"] wait.name (handsOn "port(d, e), v") []
    ["port(d, e)".toList, " v".toList] :=
  handsOn_site rfl (by decide +kernel) (by decide +kernel) (by decide +kernel)

theorem passed_exact_wait :
    (∃ position, parameter? shared "client" wait = some (.viaCaller position)) ∧
      (step shared [wait, handsOn "d, v"] "client" wait).value = .goTo "v" (handsOn "d, v") ∧
      (¬ Right " v".toList (handsOn "port(d, e), v")
        (step shared [wait, handsOn "port(d, e), v"] "client" wait).value) ∧
      Right " v".toList (handsOn "port, v")
        (step shared [waitCalling, handsOn "port, v"] "client" waitCalling).value := by
  have plain : CallSite [wait, handsOn "d, v"] wait.name (handsOn "d, v") [] ["d".toList, " v".toList] :=
    handsOn_site rfl (by decide +kernel) (by decide +kernel) (by decide +kernel)
  have short : CallSite [waitCalling, handsOn "port, v"] waitCalling.name (handsOn "port, v") []
      ["port".toList, " v".toList] :=
    handsOn_site rfl (by decide +kernel) (by decide +kernel) (by decide +kernel)
  have third : parameter? shared "client" waitCalling = some (.viaCaller 3) := by decide +kernel
  refine ⟨?_, ?_, ?_, ?_⟩
  · exact (passed_exact rfl wait_takes plain rfl).1 (by decide +kernel)
  · exact (((passed_exact rfl wait_takes plain rfl).2 2 wait_second).2.2 waited_alone).2 rfl (by decide +kernel)
  · rw [((passed_exact rfl wait_takes nested_site rfl).2 2 wait_second).1 " e)".toList (by decide +kernel)]
    decide +kernel
  · rw [((passed_exact rfl waitCalling_takes short rfl).2 3 third).2.1 (by decide +kernel)]
    rintro h other ⟨_, _, before, after, whole, _⟩
    simp at whole

theorem nested_argument_taken :
    TakesClient wait.params "client" waited 1 ∧
      CallSite [wait, handsOn "port(d, e), v"] wait.name (handsOn "port(d, e), v") []
        ["port(d, e)".toList, " v".toList] ∧
      (step shared [wait, handsOn "port(d, e), v"] "client" wait).value =
        .goTo "e" (handsOn "port(d, e), v") ∧
      ¬ Right " v".toList (handsOn "port(d, e), v")
        (step shared [wait, handsOn "port(d, e), v"] "client" wait).value := by
  have piece : (piecesOf ["port(d, e)".toList, " v".toList])[1]? = some " e)".toList := by decide +kernel
  refine ⟨wait_takes, nested_site, ?_, ?_⟩
  · have stepped := nested_site.step_piece wait_second piece
    rw [if_neg (by decide +kernel)] at stepped
    refine stepped.trans ?_
    rw [(by decide +kernel : cutOut " e)".toList = "e")]
  · rw [nested_site.right_piece wait_second piece]
    decide +kernel

end CallAtlas.Trace
