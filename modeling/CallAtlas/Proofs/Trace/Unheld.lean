import CallAtlas.Proofs.Text.FirstMatch
import CallAtlas.Proofs.Trace.Arguments

namespace CallAtlas.Trace

open CallAtlas.Text CallAtlas.Text.Pattern CallAtlas.Sdk

-- A word ends, and one blank on the type of clients follows.
def ClientHere (before : Option Char) (rest : List Char) : Prop :=
  before.any isWord = true ∧ ∃ blank behind, rest = blank :: (clientType ++ behind) ∧
    isBlank blank = true ∧ behind.head?.any isWord = false

-- A comma, perhaps a word, and an assignment from a name with a dot in it. The word behind the dot is
-- that of the constructor, if it is one.
structure PairText (text name : List Char) : Prop where
  written : ∃ gap₁ gap₂ second gap₃ colon gap₄ object behind,
    text = gap₁ ++ ',' :: (gap₂ ++ (second ++ (gap₃ ++ (colon ++ '=' ::
      (gap₄ ++ (object ++ '.' :: (name ++ behind))))))) ∧
    (gap₁.all isBlank = true ∧ gap₂.all isBlank = true ∧ gap₃.all isBlank = true ∧ gap₄.all isBlank = true) ∧
    (second.all isWord = true ∧ object.all isWord = true) ∧ (colon = [] ∨ colon = [':']) ∧
    behind.head?.any isWord = false
  word : name.all isWord = true

def PairHere (before : Option Char) (rest : List Char) : Prop :=
  before.any isWord = true ∧ ∃ name, PairText rest name

-- The constructor of the first pair that is assigned.
def FirstPair (source name : String) : Prop :=
  ∃ lead rest, source.toList = lead ++ rest ∧ FirstAt PairHere source.toList lead ∧ PairText rest name.toList

def chooserName : List Char := "chooseDNSClientbyZoneID".toList

-- A line with a word in front of the helper that chooses.
def ChosenIn (source : List Char) : Prop :=
  ∃ lead w line blank behind,
    source = lead ++ w :: (line ++ ':' :: '=' :: blank :: (chooserName ++ behind)) ∧
    isWord w = true ∧ line.all notNewline = true ∧ isBlank blank = true ∧ behind.head?.any isWord = false

section Reading

variable {before : Option Char} {rest text name name' : List Char} {blank c : Char}

theorem edge_unworded (unworded : rest.head?.any isWord = false) : isEdge before rest = before.any isWord := by
  rw [isEdge, unworded, Bool.bne_false]

theorem edge_worded (worded : before.any isWord = true) :
    isEdge before rest = true ↔ rest.head?.any isWord = false := by
  rw [isEdge, worded]
  cases rest.head?.any isWord <;> decide

theorem clientHere_exact :
    (run (clientPattern "") { before, rest }).isSome = true ↔ ClientHere before rest := by
  rw [run_isSome]
  have worded : ∀ blank, (clientType.getLast?.or (some blank)).any isWord = true := fun _ => by
    exact (by decide : isWord 't' = true)
  constructor
  · rintro ⟨edge, _, rfl, blank, _, rfl, fits, behind, rfl, ends, _⟩
    have unworded : (blank :: (clientType ++ behind)).head?.any isWord = false := blank_unworded fits
    refine ⟨(edge_unworded unworded).symm.trans edge, blank, behind, rfl, fits, ?_⟩
    exact (edge_worded (worded blank)).mp ends
  · rintro ⟨word, blank, behind, rfl, fits, ends⟩
    have unworded : (blank :: (clientType ++ behind)).head?.any isWord = false := blank_unworded fits
    refine ⟨(edge_unworded unworded).trans word, _, rfl, blank, _, rfl, fits, behind, rfl, ?_, trivial⟩
    exact (edge_worded (worded blank)).mpr ends

def pairLead : Pattern :=
  [.edge, word "", .many isBlank, word ",", .many isBlank, .many isWord, .many isBlank, .maybe (· == ':'),
    word "=", .many isBlank, .many isWord, word "."]

def pairPattern : Pattern := pairLead ++ [.opens, .many isWord, .closes]

theorem pairText_of_leads (leads : Leads pairLead text rest) : PairText text (rest.takeWhile isWord) := by
  obtain ⟨_, rfl, gap₁, _, rfl, blank₁, _, rfl, gap₂, _, rfl, blank₂, second, _, rfl, word₂, gap₃, afterGap, rfl,
    blank₃, coloned⟩ := leads
  have assigned : ∃ colon after, afterGap = colon ++ after ∧ (colon = [] ∨ colon = [':']) ∧
      Leads [word "=", .many isBlank, .many isWord, word "."] after rest := by
    rcases coloned with plain | ⟨c, after, rfl, isColon, assigned⟩
    · exact ⟨[], afterGap, rfl, .inl rfl, plain⟩
    · exact ⟨[c], after, rfl, .inr (by rw [beq_iff_eq.mp isColon]), assigned⟩
  have ends := dropWhile_ends isWord rest
  have named : rest.takeWhile isWord ++ rest.dropWhile isWord = rest := List.takeWhile_append_dropWhile
  obtain ⟨colon, _, rfl, isColon, _, rfl, gap₄, _, rfl, blank₄, object, _, rfl, word₄, _, rfl, rfl⟩ := assigned
  refine ⟨⟨gap₁, gap₂, second, gap₃, colon, gap₄, object, _, ?_, ⟨blank₁, blank₂, blank₃, blank₄⟩, ⟨word₂, word₄⟩,
    isColon, ends⟩, List.all_takeWhile⟩
  rw [named]
  rfl

theorem PairText.unworded (pair : PairText text name) : text.head?.any isWord = false := by
  obtain ⟨gap₁, _, _, _, _, _, _, _, rfl, ⟨blank₁, _⟩, _⟩ := pair.written
  exact gap_unworded blank₁ (by decide)

theorem pair_found {t : Pattern.State} (found : run pairPattern { before, rest } = some t) :
    before.any isWord = true ∧ ∃ name, t.groups = [name] ∧ PairText rest name := by
  obtain ⟨s, lead, ran⟩ := run_append found
  have pair := pairText_of_leads lead.leads
  obtain ⟨closed, groups, count⟩ := lead.groups
  have none : closed = [] := List.length_eq_zero_iff.mp count
  obtain ⟨_, edge, _⟩ := run_cons found
  cases edge with
  | edge edge =>
    rw [run_group (.inl rfl)] at ran
    cases ran
    refine ⟨(edge_unworded pair.unworded).symm.trans edge, s.rest.takeWhile isWord, ?_, pair⟩
    rw [groups, none]
    rfl

theorem pairHere_exact : (run pairPattern { before, rest }).isSome = true ↔ PairHere before rest := by
  constructor
  · intro found
    obtain ⟨t, ran⟩ := Option.isSome_iff_exists.mp found
    obtain ⟨worded, name, _, pair⟩ := pair_found ran
    exact ⟨worded, name, pair⟩
  · rintro ⟨worded, name, pair⟩
    have edge : isEdge before rest = true := (edge_unworded pair.unworded).trans worded
    obtain ⟨gap₁, gap₂, second, gap₃, colon, gap₄, object, behind, rfl, ⟨blank₁, blank₂, blank₃, blank₄⟩,
      ⟨word₂, word₄⟩, coloned, _⟩ := pair.written
    rw [run_isSome]
    refine ⟨edge, _, rfl, gap₁, _, rfl, blank₁, _, rfl, gap₂, _, rfl, blank₂, second, _, rfl, word₂, gap₃, _, rfl,
      blank₃, ?_⟩
    have assigned : ∀ before, Passable [word "=", .many isBlank, .many isWord, word ".", .opens, .many isWord,
        .closes] before ('=' :: (gap₄ ++ (object ++ '.' :: (name ++ behind)))) := fun _ =>
      ⟨_, rfl, gap₄, _, rfl, blank₄, object, _, rfl, word₄, _, rfl, name, _, rfl, pair.word, trivial⟩
    rcases coloned with rfl | rfl
    · exact .inl (assigned _)
    · exact .inr ⟨':', _, rfl, rfl, assigned _⟩

def gapOrWord (c : Char) : Bool := isBlank c || isWord c

theorem all_gap (blank : text.all isBlank = true) : text.all gapOrWord = true := by
  apply List.all_eq_true.mpr
  intro c member
  rw [gapOrWord, List.all_eq_true.mp blank c member, Bool.true_or]

theorem all_word (worded : text.all isWord = true) : text.all gapOrWord = true := by
  apply List.all_eq_true.mpr
  intro c member
  rw [gapOrWord, List.all_eq_true.mp worded c member, Bool.or_true]

-- The name read from the left, which shows that a text has no other.
def pairName (text : List Char) : List Char :=
  let assigned := (text.dropWhile isBlank).tail.dropWhile gapOrWord
  let named := (assigned.dropWhile (· == ':')).tail.dropWhile gapOrWord
  named.tail.takeWhile isWord

theorem PairText.name_eq (pair : PairText text name) : pairName text = name := by
  obtain ⟨gap₁, gap₂, second, gap₃, colon, gap₄, object, behind, rfl, ⟨blank₁, blank₂, blank₃, blank₄⟩,
    ⟨word₂, word₄⟩, coloned, ends⟩ := pair.written
  have comma : ∀ more, (',' :: more).head?.any isBlank = false := fun _ => (by decide : isBlank ',' = false)
  have point : ∀ more, ('.' :: more).head?.any gapOrWord = false := fun _ => (by decide : gapOrWord '.' = false)
  have assigns : ∀ more, (colon ++ '=' :: more).head?.any gapOrWord = false := by
    intro more
    rcases coloned with rfl | rfl
    · exact (by decide : gapOrWord '=' = false)
    · exact (by decide : gapOrWord ':' = false)
  have equals : ∀ more, ((colon ++ '=' :: more).dropWhile (· == ':')).tail = more := by
    intro more
    rcases coloned with rfl | rfl <;> rfl
  have first : (gap₂ ++ second ++ gap₃).all gapOrWord = true := by
    simp only [List.all_append, all_gap blank₂, all_word word₂, all_gap blank₃, Bool.and_true]
  have last : (gap₄ ++ object).all gapOrWord = true := by
    simp only [List.all_append, all_gap blank₄, all_word word₄, Bool.and_true]
  rw [pairName, dropWhile_inside blank₁ (comma _), List.tail_cons, ← List.append_assoc second,
    ← List.append_assoc gap₂, ← List.append_assoc gap₂, dropWhile_inside first (assigns _), equals,
    ← List.append_assoc gap₄, dropWhile_inside last (point _), List.tail_cons, takeWhile_inside pair.word ends]

theorem pair_unique (one : PairText text name) (two : PairText text name') : name = name' :=
  one.name_eq.symm.trans two.name_eq

-- A line of the helper from a word boundary on.
def ChosenHere (before : Option Char) (rest : List Char) : Prop :=
  isEdge before rest = true ∧ ∃ line blank behind, rest = line ++ ':' :: '=' :: blank :: (chooserName ++ behind) ∧
    line.all notNewline = true ∧ isBlank blank = true ∧ behind.head?.any isWord = false

def chooserPattern : Pattern :=
  [.edge, word "", .edge, .many notNewline, word ":=", .one isBlank, word "chooseDNSClientbyZoneID", .edge]

theorem chosenHere_exact : (run chooserPattern { before, rest }).isSome = true ↔ ChosenHere before rest := by
  rw [run_isSome]
  have worded : ∀ blank, (chooserName.getLast?.or (some blank)).any isWord = true := fun _ => by
    exact (by decide : isWord 'D' = true)
  constructor
  · rintro ⟨edge, _, rfl, _, line, _, rfl, inLine, _, rfl, blank, _, rfl, fits, behind, rfl, ends, _⟩
    exact ⟨edge, line, blank, behind, rfl, inLine, fits, (edge_worded (worded blank)).mp ends⟩
  · rintro ⟨edge, line, blank, behind, rfl, inLine, fits, ends⟩
    exact ⟨edge, _, rfl, edge, line, _, rfl, inLine, _, rfl, blank, _, rfl, fits, behind, rfl,
      (edge_worded (worded blank)).mpr ends, trivial⟩

-- Behind a word and in front of an assignment there is a boundary.
theorem boundary (line more lead : List Char) (worded : isWord c = true) :
    ∃ passed left, line = passed ++ left ∧
      isEdge ((lead ++ c :: passed).getLast?) (left ++ ':' :: more) = true := by
  induction line generalizing c lead with
  | nil =>
    refine ⟨[], [], rfl, ?_⟩
    rw [List.getLast?_append, isEdge]
    simp [worded, (by decide : isWord ':' = false)]
  | cons d line ih =>
    by_cases further : isWord d = true
    · obtain ⟨passed, left, rfl, edge⟩ := ih (lead ++ [c]) further
      refine ⟨d :: passed, left, rfl, ?_⟩
      rwa [List.append_assoc] at edge
    · refine ⟨[], d :: line, rfl, ?_⟩
      rw [isEdge]
      simp [worded, further]

theorem chosenIn_iff : ChosenIn text ↔ ∃ lead, StandsAt ChosenHere text lead := by
  constructor
  · rintro ⟨lead, w, line, blank, behind, rfl, worded, inLine, fits, ends⟩
    obtain ⟨passed, left, rfl, edge⟩ := boundary line ('=' :: blank :: (chooserName ++ behind)) lead worded
    rw [List.all_append, Bool.and_eq_true] at inLine
    refine ⟨lead ++ w :: passed, _, ?_, edge, left, blank, behind, rfl, inLine.2, fits, ends⟩
    simp only [List.append_assoc, List.cons_append]
  · rintro ⟨lead, rest, rfl, edge, line, blank, behind, rfl, inLine, fits, ends⟩
    cases first : (line ++ ':' :: '=' :: blank :: (chooserName ++ behind)).head?.any isWord with
    | false =>
      rw [edge_unworded first] at edge
      obtain ⟨w, last, worded⟩ := (Option.any_eq_true _ _).mp edge
      obtain ⟨front, rfl⟩ := List.getLast?_eq_some_iff.mp last
      refine ⟨front, w, line, blank, behind, ?_, worded, inLine, fits, ends⟩
      simp only [List.append_assoc, List.singleton_append]
    | true =>
      cases line with
      | nil => exact absurd first (by decide : isWord ':' ≠ true)
      | cons d line =>
        rw [List.all_cons, Bool.and_eq_true] at inLine
        exact ⟨lead, d, line, blank, behind, rfl, first, inLine.2, fits, ends⟩

end Reading

section Readings

variable {params source name : String} {position : Nat}

theorem parameterClient?_read (params : String) : Rest.parameterClient? "" params =
    ((clientPattern "").find? params).map fun m => .viaCaller ((params.toList.take m.lead).count ',' + 1) := rfl

theorem parameterClient?_empty : Rest.parameterClient? "" params = some (.viaCaller position) ↔
    ∃ lead, FirstAt ClientHere params.toList lead ∧ position = lead.count ',' + 1 := by
  rw [parameterClient?_read]
  constructor
  · intro given
    obtain ⟨m, found, same⟩ := Option.map_eq_some_iff.mp given
    obtain ⟨lead, rest, whole, first, here⟩ := (find?_some fun _ _ => clientHere_exact).mp found
    refine ⟨lead, first, ?_⟩
    cases same
    rw [matchHere_lead here, whole, List.take_left]
  · rintro ⟨lead, first, rfl⟩
    obtain ⟨m, rest, whole, found, here⟩ := find?_at (fun _ _ => clientHere_exact) first
    rw [found, Option.map_some, matchHere_lead here, whole, List.take_left]

theorem parameterClient?_untaken : Rest.parameterClient? "" params = none ↔
    ∀ lead, ¬ StandsAt ClientHere params.toList lead := by
  rw [parameterClient?_read, Option.map_eq_none_iff]
  exact find?_none fun _ _ => clientHere_exact

theorem pair_group {place : Nat} {before : Option Char} {rest : List Char} {m : Match}
    (here : pairPattern.matchHere place before rest = some m) : PairText rest (m.group 0).toList := by
  obtain ⟨t, ran, rfl⟩ := Option.map_eq_some_iff.mp here
  obtain ⟨_, name, groups, pair⟩ := pair_found ran
  rw [groups]
  show PairText rest (String.ofList name).toList
  rw [String.toList_ofList]
  exact pair

theorem firstPair_found : FirstPair source name ↔ ∃ m, pairPattern.find? source = some m ∧ m.group 0 = name := by
  constructor
  · rintro ⟨lead, rest, whole, first, pair⟩
    obtain ⟨m, rest', whole', found, here⟩ := find?_at (fun _ _ => pairHere_exact) first
    cases List.append_cancel_left (whole'.symm.trans whole)
    exact ⟨m, found, String.toList_injective (pair_unique (pair_group here) pair)⟩
  · rintro ⟨m, found, rfl⟩
    obtain ⟨lead, rest, whole, first, here⟩ := (find?_some fun _ _ => pairHere_exact).mp found
    exact ⟨lead, rest, whole, first, pair_group here⟩

theorem declaredClient?_empty :
    Rest.declaredClient? "" source = some name ↔ FirstPair source name ∧ name ≠ "" := by
  rw [firstPair_found, Rest.declaredClient?]
  split
  · rename_i m found
    have found : pairPattern.find? source = some m := found
    simp only [found, Option.some.injEq, exists_eq_left']
    by_cases empty : m.group 0 = ""
    · rw [if_pos (beq_iff_eq.mpr empty)]
      exact iff_of_false nofun fun both => both.2 (both.1.symm.trans empty)
    · rw [if_neg (mt beq_iff_eq.mp empty), Option.some.injEq]
      exact ⟨fun same => ⟨same, same ▸ empty⟩, And.left⟩
  · rename_i none
    have none : pairPattern.find? source = .none := none
    simp [none]

theorem chosenClient?_empty :
    chosenClient? "" source = some name ↔ ChosenIn source.toList ∧ name = "DnsV2Client" := by
  have chosen : ChosenIn source.toList ↔ (chooserPattern.find? source).isSome = true := by
    rw [chosenIn_iff, ← Option.ne_none_iff_isSome, Ne, find?_none fun _ _ => chosenHere_exact]
    simp only [not_forall, not_not]
  have read : chosenClient? "" source = ([(⟨"chooseDNSClientbyZoneID", "DnsV2Client"⟩ : Chooser)].find? fun _ =>
    (chooserPattern.find? source).isSome).map (·.client) := rfl
  rw [read, chosen]
  cases (chooserPattern.find? source).isSome with
  | true => simp [eq_comm]
  | false => simp

end Readings

def Untaken (params : String) : Prop := ∀ lead, ¬ StandsAt ClientHere params.toList lead

def Unpaired (source : String) : Prop := ∀ name, FirstPair source name → name = ""

-- What a call without a variable is traced to: the first client parameter, wherever it comes from, else the
-- first pair, else the helper.
inductive Unheld (c : Convention) (functions : List Go.Function) (f : Go.Function) : Except Miss Binding → Prop where
  | nothing (untaken : Untaken f.params) (unpaired : Unpaired f.source) (unchosen : ¬ ChosenIn f.source.toList) :
      Unheld c functions f (.error (.undeclared "" f.name))
  | paired {name : String} (untaken : Untaken f.params) (pair : FirstPair f.source name) (named : name ≠ "") :
      Unheld c functions f (.ok ⟨"", name⟩)
  | chosen (untaken : Untaken f.params) (unpaired : Unpaired f.source) (chosen : ChosenIn f.source.toList) :
      Unheld c functions f (.ok ⟨"", "DnsV2Client"⟩)
  | nobody {lead : List Char} (taken : FirstAt ClientHere f.params.toList lead)
      (nobody : ∀ h ∈ functions, PassesNothing f.name (lead.count ',' + 1) h) :
      Unheld c functions f (.error (.noCaller "" f.name))
  | complexArgument {lead : List Char} {g : Go.Function} {argument : String}
      (taken : FirstAt ClientHere f.params.toList lead)
      (caller : FirstCaller functions f.name (lead.count ',' + 1) g argument) (call : '(' ∈ argument.toList) :
      Unheld c functions f (.error (.complexArgument g.name argument))
  | handedOn {lead : List Char} {g : Go.Function} {argument : String} {chain : List Link} {last : Link}
      {result : Except Miss Binding} (taken : FirstAt ClientHere f.params.toList lead)
      (caller : FirstCaller functions f.name (lead.count ',' + 1) g argument) (plain : '(' ∉ argument.toList)
      (traced : Chain c functions ⟨argument, g⟩ chain last) (apart : f.name ∉ names chain)
      (ends : Ends c functions (names chain ++ [f.name]) last result) : Unheld c functions f result

theorem unpaired_iff {source : String} : Unpaired source ↔ Rest.declaredClient? "" source = none := by
  simp only [Unpaired, Option.eq_none_iff_forall_ne_some, Ne, declaredClient?_empty, not_and, not_not]

theorem unchosen_iff {source : String} : ¬ ChosenIn source.toList ↔ chosenClient? "" source = none := by
  simp [Option.eq_none_iff_forall_ne_some, chosenClient?_empty]

section Traces

variable {c : Convention} {functions : List Go.Function} {file : Go.SourceFile} {f : Go.Function}
  {result : Except Miss Binding} {position : Nat} {name : String} (rest : c.kind = .rest)

include rest

theorem empty_parameter : Link.parameter? c ⟨"", f⟩ = Rest.parameterClient? "" f.params := by
  simp only [Link.parameter?, parameter?, rest, Convention.parameterClient?]

theorem empty_name :
    Link.named? c ⟨"", f⟩ = (Rest.declaredClient? "" f.source).or (chosenClient? "" f.source) := by
  simp only [Link.named?, rest, Convention.declaredClient?]

theorem empty_untaken : Link.parameter? c ⟨"", f⟩ = none ↔ Untaken f.params := by
  rw [empty_parameter rest, parameterClient?_untaken, Untaken]

theorem empty_taken : Link.parameter? c ⟨"", f⟩ = some (.viaCaller position) ↔
    ∃ lead, FirstAt ClientHere f.params.toList lead ∧ position = lead.count ',' + 1 := by
  rw [empty_parameter rest, parameterClient?_empty]

theorem empty_named : Link.named? c ⟨"", f⟩ = some name ↔ (FirstPair f.source name ∧ name ≠ "") ∨
    Unpaired f.source ∧ ChosenIn f.source.toList ∧ name = "DnsV2Client" := by
  rw [empty_name rest, Option.or_eq_some_iff, declaredClient?_empty, chosenClient?_empty, unpaired_iff]

theorem empty_unnamed : Link.named? c ⟨"", f⟩ = none ↔ Unpaired f.source ∧ ¬ ChosenIn f.source.toList := by
  rw [empty_name rest, Option.or_eq_none_iff, unpaired_iff, unchosen_iff]

theorem Unheld.traced (unheld : Unheld c file.functions f result) : (resolve c file "" f).value = result := by
  have new : f.name ∉ ([] : List String) := nofun
  have stopped : Stops c file.functions ⟨"", f⟩ result → (resolve c file "" f).value = result :=
    follow_stops new
  cases unheld with
  | nothing untaken unpaired unchosen =>
    exact stopped (.undeclared ((empty_untaken rest).mpr untaken) ((empty_unnamed rest).mpr ⟨unpaired, unchosen⟩))
  | paired untaken pair named =>
    exact stopped (.named (fun _ => (empty_untaken rest).mpr untaken) ((empty_named rest).mpr (.inl ⟨pair, named⟩)))
  | chosen untaken unpaired chosen =>
    exact stopped (.named (fun _ => (empty_untaken rest).mpr untaken)
      ((empty_named rest).mpr (.inr ⟨unpaired, chosen, rfl⟩)))
  | nobody taken nobody => exact stopped (.noCaller ((empty_taken rest).mpr ⟨_, taken, rfl⟩) nobody)
  | complexArgument taken caller call =>
    exact stopped (.complexArgument ((empty_taken rest).mpr ⟨_, taken, rfl⟩) caller call)
  | @handedOn lead g argument chain last result taken caller plain traced apart ends =>
    have receives : Receives c file.functions ⟨"", f⟩ ⟨argument, g⟩ :=
      ⟨⟨_, (empty_taken rest).mpr ⟨_, taken, rfl⟩, caller⟩, plain⟩
    refine (follow_receives new receives).trans (traced.follow ?_ ends traced.length_le)
    intro name member visited
    cases List.mem_singleton.mp visited
    exact apart member

theorem unheld_of_resolve : Unheld c file.functions f (resolve c file "" f).value := by
  have new : f.name ∉ ([] : List String) := nofun
  rcases stops_or_receives c file.functions ⟨"", f⟩ with ⟨result, stops⟩ | ⟨y, receives⟩
  · have stopped : (resolve c file "" f).value = result := follow_stops new stops
    rw [stopped]
    cases stops with
    | named unpassed named =>
      have untaken := (empty_untaken rest).mp (unpassed rest)
      rcases (empty_named rest).mp named with ⟨pair, filled⟩ | ⟨unpaired, chosen, rfl⟩
      · exact .paired untaken pair filled
      · exact .chosen untaken unpaired chosen
    | typed generated => exact nomatch generated.symm.trans rest
    | undeclared unpassed unnamed =>
      obtain ⟨unpaired, unchosen⟩ := (empty_unnamed rest).mp unnamed
      exact .nothing ((empty_untaken rest).mp unpassed) unpaired unchosen
    | noCaller parameter nobody =>
      obtain ⟨lead, taken, rfl⟩ := (empty_taken rest).mp parameter
      exact .nobody taken nobody
    | complexArgument parameter caller call =>
      obtain ⟨lead, taken, rfl⟩ := (empty_taken rest).mp parameter
      exact .complexArgument taken caller call
  · obtain ⟨position, parameter, caller⟩ := receives.passed
    obtain ⟨lead, taken, rfl⟩ := (empty_taken rest).mp parameter
    have room := (Room.start file.functions ⟨"", f⟩).next new receives.mem
    have elsewhere : y.function.name ∉ [f.name] := by simpa using caller.other
    obtain ⟨chain, last, traced, apart, ends⟩ := follow_chain (c := c) room elsewhere
    have followed : (resolve c file "" f).value =
        (follow c file.functions (file.functions.length + 1) [f.name] y.receiver y.function).value :=
      follow_receives new receives
    rw [followed]
    exact .handedOn taken caller receives.plain traced (fun member => apart _ member List.mem_cons_self) ends

theorem resolve_unheld : (resolve c file "" f).value = result ↔ Unheld c file.functions f result := by
  constructor
  · rintro rfl
    exact unheld_of_resolve rest
  · exact Unheld.traced rest

end Traces

end CallAtlas.Trace
