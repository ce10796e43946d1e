import CallAtlas.Catalog.Index
import CallAtlas.Proofs.Text.FirstMatch
import CallAtlas.Proofs.Text.Spans
import CallAtlas.Sdk.Generated

namespace CallAtlas.Sdk.Generated

open CallAtlas.Text CallAtlas.Text.Pattern

def clientWord : List Char := "Client".toList

def assignWord : List Char := " := ".toList

-- The receiver and an error are declared together; `behind` is what they are assigned.
def Declares (receiver : List Char) (before : Option Char) (text behind : List Char) : Prop :=
  isEdge before text = true ∧ ∃ error, error ≠ [] ∧ error.all isWord = true ∧
    text = receiver ++ (", ".toList ++ (error ++ (assignWord ++ behind)))

-- A constructor is called on a name.
def Constructs (behind name : List Char) : Prop :=
  ∃ on arguments, on ≠ [] ∧ on.all isWord = true ∧ name.all isWord = true ∧ clientWord <:+ name ∧
    behind = on ++ '.' :: (name ++ '(' :: arguments)

-- The beginnings of a line that end with a client's name, two characters or more in front of it.
structure EndsClient (behind front : List Char) : Prop where
  begins : front <+: behind
  inLine : '\n' ∉ front
  named : clientWord <:+ front
  room : 8 ≤ front.length

structure Furthest (behind front : List Char) : Prop where
  ends : EndsClient behind front
  last : ∀ other, EndsClient behind other → other.length ≤ front.length

-- What is read of the beginning of a line: a word is passed over as far as the name leaves room, and
-- one character more.
def nameIn (behind front : List Char) : List Char :=
  front.drop (min (behind.takeWhile isWord).length (front.length - 8) + 1)

def DeclaresClient (receiver : List Char) (before : Option Char) (text : List Char) : Prop :=
  ∃ behind, Declares receiver before text behind ∧ ∃ front, EndsClient behind front

-- What the first declaration on whose line a client's name stands is assigned.
def FirstDeclared (receiver source : String) (behind : List Char) : Prop :=
  ∃ lead text, source.toList = lead ++ text ∧ FirstAt (DeclaresClient receiver.toList) source.toList lead ∧
    Declares receiver.toList lead.getLast? text behind

-- A constructor is called whose name says whose client it makes, and no client's name ends on the line
-- behind it.
structure Alone (behind on name arguments : List Char) : Prop where
  called : behind = on ++ '.' :: (name ++ '(' :: arguments)
  filled : on ≠ []
  worded : on.all isWord = true ∧ name.all isWord = true
  named : clientWord <:+ name
  stem : name ≠ clientWord
  last : ∀ front, front <+: arguments → '\n' ∉ front → ¬ clientWord <:+ front

section Reading

variable {receiver before text behind behind' name front other : List Char}

def declaration (receiver : String) : Pattern :=
  [.edge, word receiver, word ", ", .one isWord, .many isWord, word " := "]

def constructor : Pattern :=
  [.many isWord, .one notNewline, .opens, .one notNewline, .many notNewline, word "Client", .closes]

def declarationPattern (receiver : String) : Pattern := declaration receiver ++ constructor

theorem declaredClient?_read (receiver source : String) :
    declaredClient? receiver source = ((declarationPattern receiver).find? source).map (·.group 0) := rfl

theorem word_inLine (worded : text.all isWord = true) : '\n' ∉ text := by
  intro newline
  exact absurd (List.all_eq_true.mp worded _ newline) (by decide)

theorem EndsClient.parts (ends : EndsClient behind front) :
    ∃ c d inside rest, front = c :: d :: (inside ++ clientWord) ∧ behind = c :: d :: (inside ++ (clientWord ++ rest)) ∧
      c ≠ '\n' ∧ d ≠ '\n' ∧ inside.all notNewline = true := by
  obtain ⟨begins, inLine, ⟨lead, rfl⟩, room⟩ := ends
  obtain ⟨rest, rfl⟩ := begins
  rw [List.length_append, show clientWord.length = 6 from rfl] at room
  match lead, room, inLine with
  | c :: d :: inside, _, inLine =>
    simp only [List.cons_append, List.mem_cons, List.mem_append, not_or] at inLine
    exact ⟨c, d, inside, rest, rfl, by simp, Ne.symm inLine.1, Ne.symm inLine.2.1, inLine_iff.mpr inLine.2.2.1⟩

theorem endsClient_of_parts {on inside rest : List Char} {c d : Char} (worded : on.all isWord = true) (lineC : c ≠ '\n')
    (lineD : d ≠ '\n') (inLine : inside.all notNewline = true) :
    EndsClient (on ++ c :: d :: (inside ++ (clientWord ++ rest))) (on ++ c :: d :: (inside ++ clientWord)) := by
  have line : (on ++ c :: d :: (inside ++ clientWord)).all notNewline = true := by
    simp only [List.all_append, List.all_cons, inLine_iff.mpr (word_inLine worded), inLine, notNewline,
      bne_iff_ne.mpr lineC, bne_iff_ne.mpr lineD]
    decide
  refine ⟨⟨rest, by simp⟩, inLine_iff.mp line, ⟨on ++ c :: d :: inside, by simp⟩, ?_⟩
  simp [clientWord]
  omega

theorem constructor_passable (last : Option Char) :
    Passable constructor last behind ↔ ∃ front, EndsClient behind front := by
  constructor
  · rintro ⟨on, _, rfl, worded, c, _, rfl, fits, d, _, rfl, fits', inside, _, rfl, inLine, rest, rfl, _⟩
    exact ⟨_, endsClient_of_parts worded (bne_iff_ne.mp fits) (bne_iff_ne.mp fits') inLine⟩
  · rintro ⟨front, ends⟩
    obtain ⟨c, d, inside, rest, _, rfl, lineC, lineD, inLine⟩ := ends.parts
    exact ⟨[], _, rfl, rfl, c, _, rfl, bne_iff_ne.mpr lineC, d, _, rfl, bne_iff_ne.mpr lineD, inside, _, rfl, inLine,
      rest, rfl, trivial⟩

-- The word that is passed over cannot be longer, as the steps behind it could go on then.
theorem nameIn_read {on inside rest : List Char} {last : Option Char} {c d : Char} (worded : on.all isWord = true)
    (lineD : d ≠ '\n') (inLine : inside.all notNewline = true)
    (longest : ∀ longer after, on ++ c :: d :: (inside ++ (clientWord ++ rest)) = longer ++ after →
      longer.all isWord = true → Passable constructor.tail (longer.getLast?.or last) after →
      longer.length ≤ on.length) :
    nameIn (on ++ c :: d :: (inside ++ (clientWord ++ rest))) (on ++ c :: d :: (inside ++ clientWord)) =
      d :: (inside ++ clientWord) := by
  have size : (on ++ c :: d :: (inside ++ clientWord)).length - 8 = on.length + inside.length := by
    simp [clientWord]
    omega
  have passed : min ((on ++ c :: d :: (inside ++ (clientWord ++ rest))).takeWhile isWord).length
      (on.length + inside.length) = on.length := by
    rw [List.takeWhile_append_of_pos (List.all_eq_true.mp worded), List.length_append]
    cases inside with
    | nil => simp
    | cons e inside =>
      by_cases further : isWord c = true
      · rw [List.all_cons, Bool.and_eq_true] at inLine
        have longer := longest (on ++ [c]) (d :: (e :: inside ++ (clientWord ++ rest))) (by simp)
          (by simp [worded, further])
          ⟨d, _, rfl, bne_iff_ne.mpr lineD, e, _, rfl, inLine.1, inside, _, rfl, inLine.2, rest, rfl, trivial⟩
        rw [List.length_append, List.length_singleton] at longer
        omega
      · rw [List.takeWhile_cons_of_neg further]
        simp
  rw [nameIn, size, passed, List.drop_append]
  simp

-- The name ends with the last `Client` on the line.
theorem name_read {s t : Pattern.State}
    (ran : run [.opens, .one notNewline, .many notNewline, word "Client", .closes] s = some t) :
    ∃ d inside rest, s.rest = d :: (inside ++ (clientWord ++ rest)) ∧ d ≠ '\n' ∧ inside.all notNewline = true ∧
      t.groups = (d :: (inside ++ clientWord)) :: s.groups ∧
      ∀ longer after, s.rest = d :: (longer ++ (clientWord ++ after)) → longer.all notNewline = true →
        longer.length ≤ inside.length := by
  obtain ⟨before, text, openAt, groups⟩ := s
  cases text with
  | nil => simp [run] at ran
  | cons d text =>
  simp only [run] at ran
  split at ran
  · rename_i fits
    obtain ⟨inside, left, rfl, inLine, ends, longest⟩ := manyThen_longest ran
    simp only [word, run] at ends
    split at ends
    · rename_i last rest passed
      obtain ⟨rfl, -⟩ := passText_exact passed
      cases ends
      refine ⟨d, inside, rest, rfl, bne_iff_ne.mp fits, inLine, ?_, fun longer after whole line => ?_⟩
      · refine congrArg (· :: groups) ?_
        rw [← List.append_assoc, ← List.cons_append, List.length_append, Nat.add_sub_cancel, List.take_left]
        rfl
      · exact longest longer (clientWord ++ after) (List.cons.inj whole).2 line (run_isSome.mpr ⟨after, rfl, trivial⟩)
    · cases ends
  · cases ran

-- Of all ways to read a line, the one with the most characters in the name, and then in the word.
theorem constructor_read {s t : Pattern.State} (ran : run constructor s = some t) :
    ∃ front, Furthest s.rest front ∧ t.groups = nameIn s.rest front :: s.groups := by
  obtain ⟨on, left, whole, worded, goesOn, longest⟩ := manyThen_longest ran
  obtain ⟨middle, passes, named⟩ := run_cons goesOn
  cases passes with
  | @one _ c _ left fits here =>
  obtain ⟨d, inside, rest, here', lineD, inLine, grouped, furthest⟩ := name_read named
  dsimp only at here here' grouped furthest
  subst here here'
  have name := @nameIn_read on inside rest s.before c d worded lineD inLine fun longer after same fits passable =>
    longest longer after (whole.trans same) fits (run_isSome.mpr passable)
  rw [whole, grouped]
  refine ⟨_, ⟨endsClient_of_parts worded (bne_iff_ne.mp fits) lineD inLine, ?_⟩, congrArg (· :: s.groups) name.symm⟩
  rintro other ⟨⟨rest', whole'⟩, line, ⟨lead, rfl⟩, _⟩
  refine Nat.le_of_not_lt fun longer => ?_
  have size : (on ++ [c, d]).length ≤ lead.length := by
    simp [clientWord] at longer ⊢
    omega
  have begins : on ++ [c, d] <+: on ++ c :: d :: (inside ++ (clientWord ++ rest)) :=
    ⟨inside ++ (clientWord ++ rest), by simp⟩
  have begins' : lead <+: on ++ c :: d :: (inside ++ (clientWord ++ rest)) :=
    ⟨clientWord ++ rest', by rw [← whole', List.append_assoc]⟩
  obtain ⟨between, rfl⟩ := List.prefix_of_prefix_length_le begins begins' size
  have same : inside ++ (clientWord ++ rest) = between ++ (clientWord ++ rest') := by
    simpa using whole'.symm
  have bound := furthest between rest' (congrArg (d :: ·) same) (inLine_iff.mpr fun newline => line (by simp [newline]))
  simp at longer
  omega

theorem Furthest.unique (one : Furthest behind front) (two : Furthest behind other) : front = other := by
  have size : front.length = other.length := Nat.le_antisymm (two.last _ one.ends) (one.last _ two.ends)
  exact (List.prefix_of_prefix_length_le one.ends.begins two.ends.begins (Nat.le_of_eq size)).eq_of_length size

theorem declares_unique {before : Option Char} (one : Declares receiver before text behind)
    (two : Declares receiver before text behind') : behind = behind' := by
  obtain ⟨_, error, _, worded, rfl⟩ := one
  obtain ⟨_, error', _, worded', same⟩ := two
  have texts := List.append_cancel_left (List.append_cancel_left same)
  have ends : ∀ more, (assignWord ++ more).head?.any isWord = false := fun _ => (by decide : isWord ' ' = false)
  have errors := congrArg (List.takeWhile isWord) texts
  rw [takeWhile_inside worded (ends _), takeWhile_inside worded' (ends _)] at errors
  subst errors
  exact List.append_cancel_left (List.append_cancel_left texts)

theorem declaration_exact {receiver : String} (before : Option Char) (text : List Char) :
    (run (declarationPattern receiver) { before, rest := text }).isSome = true ↔
      DeclaresClient receiver.toList before text := by
  rw [run_isSome]
  constructor
  · rintro ⟨edge, _, rfl, _, rfl, c, _, rfl, fits, more, _, rfl, worded, behind, rfl, passable⟩
    refine ⟨behind, ⟨edge, c :: more, nofun, ?_, rfl⟩, (constructor_passable _).mp passable⟩
    simp [fits, worded]
  · rintro ⟨behind, ⟨edge, error, filled, worded, rfl⟩, ends⟩
    obtain ⟨c, more, rfl⟩ := List.exists_cons_of_ne_nil filled
    rw [List.all_cons, Bool.and_eq_true] at worded
    exact ⟨edge, _, rfl, _, rfl, c, _, rfl, worded.1, more, _, rfl, worded.2, behind, rfl,
      (constructor_passable _).mpr ends⟩

theorem declaration_read {receiver : String} {place : Nat} {before : Option Char} {text : List Char} {m : Match}
    (found : (declarationPattern receiver).matchHere place before text = some m) :
    ∃ behind front, Declares receiver.toList before text behind ∧ Furthest behind front ∧
      (m.group 0).toList = nameIn behind front := by
  obtain ⟨t, ran, rfl⟩ := Option.map_eq_some_iff.mp found
  obtain ⟨_, edge, _⟩ := run_cons ran
  cases edge with
  | edge edge =>
  obtain ⟨s, declared, ran⟩ := run_append ran
  obtain ⟨closed, groups, count⟩ := declared.groups
  have none : closed = [] := List.length_eq_zero_iff.mp count
  obtain ⟨front, furthest, grouped⟩ := constructor_read ran
  obtain ⟨_, rfl, _, rfl, c, _, rfl, fits, more, _, rfl, worded, _, rfl, rfl⟩ := declared.leads
  refine ⟨s.rest, front, ⟨edge, c :: more, nofun, by simp [fits, worded], rfl⟩, furthest, ?_⟩
  rw [grouped, groups, none]
  exact String.toList_ofList

theorem declared_found {receiver source c : String} : declaredClient? receiver source = some c ↔
    ∃ behind front, FirstDeclared receiver source behind ∧ Furthest behind front ∧ c.toList = nameIn behind front := by
  rw [declaredClient?_read, Option.map_eq_some_iff]
  constructor
  · rintro ⟨m, found, rfl⟩
    obtain ⟨lead, text, whole, first, here⟩ := (find?_some declaration_exact).mp found
    obtain ⟨behind, front, declares, furthest, named⟩ := declaration_read here
    exact ⟨behind, front, ⟨lead, text, whole, first, declares⟩, furthest, named⟩
  · rintro ⟨behind, front, ⟨lead, text, whole, first, declares⟩, furthest, named⟩
    obtain ⟨m, text', whole', found, here⟩ := find?_at declaration_exact first
    cases List.append_cancel_left (whole'.symm.trans whole)
    obtain ⟨behind', front', declares', furthest', named'⟩ := declaration_read here
    obtain rfl := declares_unique declares declares'
    obtain rfl := furthest.unique furthest'
    exact ⟨m, found, String.toList_inj.mp (named'.trans named.symm)⟩

end Reading

section Calls

variable {behind front on name arguments : List Char}

theorem word_stops (worded : on.all isWord = true) (more : List Char) :
    (on ++ '.' :: more).takeWhile isWord = on :=
  takeWhile_inside worded (by decide : isWord '.' = false)

theorem call_ends (filled : on ≠ []) (worded : on.all isWord = true ∧ name.all isWord = true)
    (named : clientWord <:+ name) (size : 7 ≤ name.length) :
    EndsClient (on ++ '.' :: (name ++ '(' :: arguments)) (on ++ '.' :: name) := by
  have first : 0 < on.length := List.length_pos_iff.mpr filled
  refine ⟨⟨'(' :: arguments, by simp⟩, ?_, named.trans ⟨on ++ ['.'], by simp⟩, ?_⟩
  · simp [word_inLine worded.1, word_inLine worded.2]
  · rw [List.length_append, List.length_cons]
    omega

-- A client's name that ends behind an opening parenthesis stands behind it.
theorem named_behind {lead more : List Char} (named : clientWord <:+ lead ++ '(' :: more) : clientWord <:+ more := by
  rcases List.suffix_or_suffix_of_suffix named (List.suffix_append lead ('(' :: more)) with inside | across
  · rcases List.suffix_cons_iff.mp inside with whole | inside
    · exact absurd (List.cons.inj whole).1 (by decide)
    · exact inside
  · exact absurd (across.subset List.mem_cons_self) (by decide)

theorem Alone.size (alone : Alone behind on name arguments) : 7 ≤ name.length := by
  obtain ⟨stem, rfl⟩ := alone.named
  have filled : stem ≠ [] := fun empty => alone.stem (by rw [empty, List.nil_append])
  have first : 0 < stem.length := List.length_pos_iff.mpr filled
  rw [List.length_append, show clientWord.length = 6 from rfl]
  omega

theorem Alone.furthest (alone : Alone behind on name arguments) : Furthest behind (on ++ '.' :: name) := by
  have ends := @call_ends _ _ arguments alone.filled alone.worded alone.named alone.size
  rw [← alone.called] at ends
  refine ⟨ends, fun other longer => Nat.le_of_not_lt fun size => ?_⟩
  obtain ⟨more, rfl⟩ := List.prefix_of_prefix_length_le ends.begins longer.begins (Nat.le_of_lt size)
  obtain ⟨rest, whole⟩ := longer.begins
  have further : more ++ rest = '(' :: arguments := by
    rw [alone.called] at whole
    simpa using whole
  cases more with
  | nil => simp at size
  | cons c more =>
    obtain ⟨rfl, inside⟩ := List.cons.inj further
    exact alone.last more ⟨rest, inside⟩ (fun newline => longer.inLine (by simp [newline]))
      (named_behind longer.named)

theorem Alone.nameIn_eq (alone : Alone behind on name arguments) (furthest : Furthest behind front) :
    nameIn behind front = name := by
  have size := alone.size
  obtain rfl := furthest.unique alone.furthest
  have passed : min on.length ((on ++ '.' :: name).length - 8) = on.length := by
    rw [List.length_append, List.length_cons]
    omega
  rw [nameIn, alone.called, word_stops alone.worded.1, passed, List.drop_append]
  simp

theorem Alone.constructs (alone : Alone behind on name arguments) : Constructs behind name :=
  ⟨on, arguments, alone.filled, alone.worded.1, alone.worded.2, alone.named, alone.called⟩

theorem alone_of_constructs (furthest : Furthest behind front) (constructs : Constructs behind (nameIn behind front)) :
    ∃ on arguments, Alone behind on (nameIn behind front) arguments := by
  obtain ⟨on, arguments, filled, worded, worded', named, called⟩ := constructs
  have room := furthest.ends.room
  have words : (behind.takeWhile isWord).length = on.length := by rw [called, word_stops worded]
  have size : (nameIn behind front).length = front.length - (min on.length (front.length - 8) + 1) := by
    rw [nameIn, List.length_drop, words]
  have seven : 7 ≤ (nameIn behind front).length := by omega
  refine ⟨on, arguments, called, filled, ⟨worded, worded'⟩, named, ?_, ?_⟩
  · intro bare
    rw [bare] at seven
    exact absurd seven (by decide)
  · intro later begins inLine again
    have first : 0 < on.length := List.length_pos_iff.mpr filled
    obtain ⟨rest, rfl⟩ := begins
    have longer : EndsClient behind (on ++ '.' :: (nameIn behind front ++ '(' :: later)) := by
      refine ⟨⟨rest, ?_⟩, ?_, ?_, ?_⟩
      · conv => rhs; rw [called]
        simp
      · simp [word_inLine worded, word_inLine worded', inLine]
      · exact again.trans ⟨on ++ '.' :: (nameIn behind front ++ ['(']), by simp⟩
      · simp
        omega
    have bound := furthest.last _ longer
    simp only [List.length_append, List.length_cons] at bound
    omega

end Calls

section Keys

variable {receiver source c stem : String} {behind behind' : List Char}

def HasStem (before : Option Char) (text : List Char) : Prop :=
  before = none ∧ ∃ stem, stem ≠ [] ∧ stem.all isWord = true ∧ text = stem ++ clientWord

theorem clientSuffix_exact (before : Option Char) (text : List Char) :
    (run Catalog.Index.clientSuffix { before, rest := text }).isSome = true ↔ HasStem before text := by
  rw [run_isSome]
  constructor
  · rintro ⟨rfl, d, _, rfl, fits, more, _, rfl, worded, _, rfl, rfl, _⟩
    exact ⟨rfl, d :: more, nofun, by simp [fits, worded], by simp [clientWord]⟩
  · rintro ⟨rfl, stem, filled, worded, rfl⟩
    obtain ⟨d, more, rfl⟩ := List.exists_cons_of_ne_nil filled
    rw [List.all_cons, Bool.and_eq_true] at worded
    exact ⟨rfl, d, _, rfl, worded.1, more, _, rfl, worded.2, [], (List.append_nil _).symm, rfl, trivial⟩

theorem clientSuffix_read {place : Nat} {before : Option Char} {text : List Char} {m : Match}
    (found : Catalog.Index.clientSuffix.matchHere place before text = some m) :
    text = (m.group 0).toList ++ clientWord := by
  obtain ⟨t, ran, rfl⟩ := Option.map_eq_some_iff.mp found
  obtain ⟨_, starts, ran⟩ := run_cons ran
  cases starts
  obtain ⟨_, opens, ran⟩ := run_cons ran
  cases opens
  obtain ⟨s, inStem, ran⟩ := @run_append [.one isWord, .many isWord] _ _ _ ran
  obtain ⟨stem, whole, _, opened, kept⟩ := @PassesAll.within isWord _ _ _ (by simp [Within]) inStem
  obtain ⟨_, closes, ran⟩ := run_cons ran
  cases closes
  obtain ⟨_, passes, ran⟩ := run_cons ran
  cases passes with
  | text here =>
  obtain ⟨_, finishes, ran⟩ := run_cons ran
  cases finishes with
  | finish ended =>
  cases ran
  dsimp only at whole opened kept here ended
  rw [ended, List.append_nil] at here
  have group : s.openAt.take (s.openAt.length - s.rest.length) = stem := by
    rw [opened, whole, List.length_append, Nat.add_sub_cancel, List.take_left]
  have first : (String.ofList stem).toList = stem := String.toList_ofList
  simp only [Match.group, group, kept, List.reverse_cons, List.reverse_nil, List.nil_append, List.map_cons,
    List.getD_cons_zero, first]
  rw [whole, here]
  rfl

-- A name that the catalog does not know counts by what stands in front of its ending.
theorem stem_key (index : Catalog.Index) (called : c = stem ++ "Client") (filled : stem ≠ "")
    (worded : stem.toList.all isWord = true) :
    index.categoryOrSuffix? c = (index.category? c).or (some (toLower stem)) := by
  have chars : c.toList = stem.toList ++ clientWord := by rw [called, String.toList_append]; rfl
  have first : FirstAt HasStem c.toList [] :=
    ⟨⟨c.toList, rfl, rfl, stem.toList, fun empty => filled (String.toList_eq_nil_iff.mp empty), worded, chars⟩,
      fun _ _ => Nat.zero_le _⟩
  obtain ⟨m, text, whole, found, here⟩ := find?_at clientSuffix_exact first
  have group : m.group 0 = stem := by
    have read := clientSuffix_read here
    rw [List.nil_append] at whole
    rw [← whole, chars] at read
    exact (String.toList_inj.mp (List.append_cancel_right read)).symm
  rw [Catalog.Index.categoryOrSuffix?, found, Option.map_some, group]
  cases index.category? c <;> rfl

end Keys

section Declared

variable {receiver source c : String} {behind behind' : List Char}

theorem FirstDeclared.unique (one : FirstDeclared receiver source behind)
    (two : FirstDeclared receiver source behind') : behind = behind' := by
  obtain ⟨lead, text, whole, first, declares⟩ := one
  obtain ⟨lead', text', whole', first', declares'⟩ := two
  obtain rfl := first.unique first'
  cases List.append_cancel_left (whole.symm.trans whole')
  exact declares_unique declares declares'

-- What is read is the name of the constructor that is called exactly if that call stands alone, and then
-- the catalog is asked for it or for its stem.
theorem declared_client_exact (receiver source : String) :
    (∀ c, declaredClient? receiver source = some c ↔
      ∃ behind front, FirstDeclared receiver source behind ∧ Furthest behind front ∧ c.toList = nameIn behind front) ∧
    ∀ c behind, declaredClient? receiver source = some c → FirstDeclared receiver source behind →
      (Constructs behind c.toList ↔ ∃ on name arguments, Alone behind on name arguments) ∧
      (∀ on name arguments, Alone behind on name arguments → c.toList = name) ∧
      (Constructs behind c.toList → ∃ stem, c = stem ++ "Client" ∧ stem ≠ "" ∧
        ∀ index : Catalog.Index, index.categoryOrSuffix? c = (index.category? c).or (some (toLower stem))) := by
  refine ⟨fun c => declared_found, fun c behind declared first => ?_⟩
  obtain ⟨behind', front, first', furthest, named⟩ := declared_found.mp declared
  obtain rfl := first.unique first'
  have name : ∀ on name arguments, Alone behind on name arguments → c.toList = name :=
    fun on name arguments alone => named.trans (alone.nameIn_eq furthest)
  have single : Constructs behind c.toList → ∃ on arguments, Alone behind on c.toList arguments := by
    rw [named]
    exact alone_of_constructs furthest
  refine ⟨⟨fun constructs => ?_, ?_⟩, name, fun constructs => ?_⟩
  · obtain ⟨on, arguments, alone⟩ := single constructs
    exact ⟨on, c.toList, arguments, alone⟩
  · rintro ⟨on, name', arguments, alone⟩
    rw [name on name' arguments alone]
    exact alone.constructs
  · obtain ⟨on, arguments, alone⟩ := single constructs
    obtain ⟨stem, whole⟩ := alone.named
    have called : c = String.ofList stem ++ "Client" := by
      rw [← String.toList_inj, String.toList_append, String.toList_ofList, ← whole]
      rfl
    have worded : stem.all isWord = true := by
      have all := alone.worded.2
      rw [← whole, List.all_append, Bool.and_eq_true] at all
      exact all.1
    have filled : String.ofList stem ≠ "" := by
      intro empty
      have none : stem = [] := by simpa using congrArg String.toList empty
      exact alone.stem (by rw [← whole, none, List.nil_append])
    exact ⟨String.ofList stem, called, filled, fun index => stem_key index called filled (by simpa using worded)⟩

theorem declared_client_exact_vpc :
    ∃ c behind, declaredClient? "client" "client, err := cfg.HcVpcV2Client(region)" = some c ∧
      FirstDeclared "client" "client, err := cfg.HcVpcV2Client(region)" behind ∧ Constructs behind c.toList ∧
      ∃ stem, c = stem ++ "Client" ∧ stem ≠ "" ∧
        ∀ index : Catalog.Index, index.categoryOrSuffix? c = (index.category? c).or (some (toLower stem)) := by
  have read : declaredClient? "client" "client, err := cfg.HcVpcV2Client(region)" = some "HcVpcV2Client" := by
    decide +kernel
  have declares : Declares "client".toList none "client, err := cfg.HcVpcV2Client(region)".toList
      "cfg.HcVpcV2Client(region)".toList :=
    ⟨by decide, "err".toList, by decide, by decide, by decide⟩
  have alone : Alone "cfg.HcVpcV2Client(region)".toList "cfg".toList "HcVpcV2Client".toList "region)".toList := by
    refine ⟨by decide, by decide, by decide, ⟨"HcVpcV2".toList, by decide⟩, by decide, ?_⟩
    intro front begins _ named
    have inside := (named.isInfix.trans begins.isInfix).subset (List.mem_cons_self : 'C' ∈ clientWord)
    exact absurd inside (by decide)
  have first : FirstDeclared "client" "client, err := cfg.HcVpcV2Client(region)" "cfg.HcVpcV2Client(region)".toList :=
    ⟨[], _, rfl, ⟨⟨_, rfl, _, declares, _, alone.furthest.ends⟩, fun _ _ => Nat.zero_le _⟩, declares⟩
  obtain ⟨exact, _, keyed⟩ := (declared_client_exact "client" "client, err := cfg.HcVpcV2Client(region)").2 _ _ read first
  have constructs := exact.mpr ⟨_, _, _, alone⟩
  exact ⟨_, _, read, first, constructs, keyed constructs⟩

-- What follows the constructor is read with it if another client is named there, and a constructor of the
-- same package loses its beginning.
theorem client_read_with_arguments :
    declaredClient? "client" "client, err := cfg.HcVpcV2Client(region, otherClient)" =
        some "HcVpcV2Client(region, otherClient" ∧
      declaredClient? "client" "client, err := NewHcVpcClient(region)" = some "cClient" := by
  decide +kernel

end Declared

end CallAtlas.Sdk.Generated
