import CallAtlas.Call.ApiComment
import CallAtlas.Proofs.Call.Methods
import CallAtlas.Proofs.Text.Fields
import CallAtlas.Proofs.Text.FirstMatch

namespace CallAtlas.ApiComment

open CallAtlas.Text CallAtlas.Text.Pattern

-- A comment begins, and `tail` is what it says.
def Comment (rest tail : List Char) : Prop :=
  ∃ gap, rest = '/' :: '/' :: (gap ++ 'A' :: 'P' :: 'I' :: ':' :: tail) ∧ gap.all isBlank = true

section Comments

variable {before : Option Char} {rest tail : List Char}

theorem label_stops (tail : List Char) : ('A' :: 'P' :: 'I' :: ':' :: tail).head?.any isBlank = false := by
  change isBlank 'A' = false
  decide

-- What a comment says is kept without the blanks before it, up to the end of the line.
theorem said_run (s : State) : ∃ t, run [.many isBlank, .opens, .many notNewline, .closes] s = some t ∧
    t.groups = (s.rest.dropWhile isBlank).takeWhile notNewline :: s.groups := by
  have kept : ∀ s : State, ∃ t, run [.opens, .many notNewline, .closes] s = some t ∧
      t.groups = s.rest.takeWhile notNewline :: s.groups := by
    intro s
    rw [run_group (.inl rfl)]
    exact ⟨_, rfl, rfl⟩
  obtain ⟨t, ran, groups⟩ := kept { s with
    before := (s.rest.takeWhile isBlank).getLast?.or s.before
    rest := s.rest.dropWhile isBlank }
  refine ⟨t, ?_, groups⟩
  rw [run, manyThen_whole]
  · exact ran
  · left
    rw [ran]
    rfl

theorem comment_run (before : Option Char) (here : Comment rest tail) :
    ∃ t, run comment { before, rest } = some t ∧ t.groups = [(tail.dropWhile isBlank).takeWhile notNewline] := by
  obtain ⟨gap, rfl, blank⟩ := here
  have named : ∀ last, ∃ t,
      run [word "API:", .many isBlank, .opens, .many notNewline, .closes]
        { before := last, rest := 'A' :: 'P' :: 'I' :: ':' :: tail } = some t ∧
      t.groups = [(tail.dropWhile isBlank).takeWhile notNewline] := by
    intro last
    rw [@run_text _ tail _ _ rfl]
    exact said_run _
  unfold comment
  rw [@run_text _ (gap ++ 'A' :: 'P' :: 'I' :: ':' :: tail) _ _ rfl, run, manyThen_whole]
  · dsimp only
    rw [takeWhile_inside blank (label_stops _), dropWhile_inside blank (label_stops _)]
    exact named _
  · left
    dsimp only
    rw [takeWhile_inside blank (label_stops _), dropWhile_inside blank (label_stops _)]
    obtain ⟨t, ran, _⟩ := named (gap.getLast?.or ("//".toList.getLast?.or before))
    rw [ran]
    rfl

theorem comment_exact (before : Option Char) (rest : List Char) :
    (run comment { before, rest }).isSome = true ↔ ∃ tail, Comment rest tail := by
  constructor
  · intro passes
    obtain ⟨after, rfl, gap, after', rfl, blank, tail, rfl, _⟩ := run_isSome.mp passes
    exact ⟨tail, gap, rfl, blank⟩
  · rintro ⟨tail, here⟩
    obtain ⟨t, ran, _⟩ := comment_run before here
    rw [ran]
    rfl

theorem comment_unique {tail' : List Char} (one : Comment rest tail) (two : Comment rest tail') : tail = tail' := by
  obtain ⟨gap, rfl, blank⟩ := one
  obtain ⟨gap', same, blank'⟩ := two
  have behind := congrArg (List.dropWhile isBlank) (List.cons.inj (List.cons.inj same).2).2
  rw [dropWhile_inside blank (label_stops _), dropWhile_inside blank' (label_stops _)] at behind
  simpa using behind

-- The first comment of a line, and what it says.
def FirstComment (line : String) (tail : List Char) : Prop :=
  ∃ lead rest, line.toList = lead ++ rest ∧ Comment rest tail ∧
    ∀ lead' rest' tail', line.toList = lead' ++ rest' → Comment rest' tail' → lead.length ≤ lead'.length

theorem firstComment_unique {line : String} {tail' : List Char} (one : FirstComment line tail)
    (two : FirstComment line tail') : tail = tail' := by
  obtain ⟨lead, rest, whole, here, first⟩ := one
  obtain ⟨lead', rest', whole', here', first'⟩ := two
  have size : lead.length = lead'.length :=
    Nat.le_antisymm (first _ _ _ whole' here') (first' _ _ _ whole here)
  obtain ⟨rfl, rfl⟩ := List.append_inj (whole.symm.trans whole') size
  exact comment_unique here here'

theorem Comment.suffix {lead : List Char} {line : String} (here : Comment rest tail)
    (whole : line.toList = lead ++ rest) : tail <:+ line.toList := by
  obtain ⟨gap, rfl, _⟩ := here
  refine ⟨lead ++ '/' :: '/' :: (gap ++ ['A', 'P', 'I', ':']), ?_⟩
  rw [whole]
  simp

theorem find?_comment {line : String} (oneLine : '\n' ∉ line.toList) :
    (∃ m tail, comment.find? line = some m ∧ FirstComment line tail ∧
        fields (m.group 0) = (fieldsOf tail).map String.ofList) ∨
      comment.find? line = none ∧ ∀ tail, ¬ FirstComment line tail := by
  cases found : comment.find? line with
  | none =>
    refine .inr ⟨rfl, ?_⟩
    rintro tail ⟨lead, rest, whole, here, _⟩
    exact (find?_none comment_exact).mp found lead ⟨rest, whole, tail, here⟩
  | some m =>
    obtain ⟨lead, rest, whole, ⟨⟨rest', whole', tail, here⟩, first⟩, matched⟩ := (find?_some comment_exact).mp found
    obtain rfl := List.append_cancel_left (whole.symm.trans whole')
    obtain ⟨t, ran, groups⟩ := comment_run lead.getLast? here
    have suffix := here.suffix whole
    have plain : (tail.dropWhile isBlank).takeWhile notNewline = tail.dropWhile isBlank := by
      refine List.takeWhile_eq_self_iff.mpr fun c member => ?_
      have inside : c ∈ line.toList := suffix.mem ((List.dropWhile_suffix _).mem member)
      rw [notNewline, bne_iff_ne]
      rintro rfl
      exact oneLine inside
    have said : m.group 0 = String.ofList (tail.dropWhile isBlank) := by
      rw [matchHere, ran] at matched
      cases matched
      change (t.groups.reverse.map String.ofList).getD 0 "" = _
      rw [groups, plain]
      rfl
    refine .inl ⟨m, tail, rfl, ⟨lead, rest, whole, here, ?_⟩, ?_⟩
    · exact fun lead' rest' tail' whole here => first lead' ⟨rest', whole, tail', here⟩
    · rw [said, fields, String.toList_ofList, fieldsOf_dropWhile]

end Comments

-- What a line notes: its first comment has three words, and the second is a method.
def Annotates (line product : String) (m : Method) (url : String) : Prop :=
  ∃ tail verb, FirstComment line tail ∧ Words tail [product.toList, verb.toList, url.toList] ∧ m.Spells verb

theorem readLine_call {line product url : String} {m : Method} (oneLine : '\n' ∉ line.toList) :
    readLine line = .call product m url ↔ Annotates line product m url := by
  rcases find?_comment oneLine with ⟨found, tail, matched, first, given⟩ | ⟨nothing, silent⟩
  · have shown : readLine line = .call product m url ↔
        ∃ verb, fields (found.group 0) = [product, verb, url] ∧ Method.ofText? verb = some m := by
      rw [readLine, matched]
      dsimp only
      split
      · rename_i product' verb' url' parts
        have sole : ∀ w, [product', verb', url'] = [product, w, url] ∧ Method.ofText? w = some m ↔
            (product' = product ∧ verb' = w ∧ url' = url) ∧ Method.ofText? w = some m := by
          intro w
          simp
        simp only [parts, sole]
        cases named : Method.ofText? verb' with
        | none =>
          refine iff_of_false nofun ?_
          rintro ⟨_, ⟨_, rfl, _⟩, known⟩
          exact Option.some_ne_none _ (known.symm.trans named)
        | some n =>
          constructor
          · rintro ⟨⟩
            exact ⟨verb', ⟨rfl, rfl, rfl⟩, named⟩
          · rintro ⟨_, ⟨rfl, rfl, rfl⟩, known⟩
            rw [Option.some_inj.mp (named.symm.trans known)]
      · rename_i other
        refine iff_of_false nofun ?_
        rintro ⟨verb, parts, _⟩
        exact other product verb url parts
    rw [shown, given]
    constructor
    · rintro ⟨verb, parts, named⟩
      refine ⟨tail, verb, first, words_iff.mp ?_, Method.ofText?_iff.mp named⟩
      have chars := congrArg (List.map String.toList) parts
      rw [List.map_map] at chars
      simpa [Function.comp_def] using chars
    · rintro ⟨other, verb, first', words, spells⟩
      obtain rfl := firstComment_unique first first'
      refine ⟨verb, ?_, Method.ofText?_iff.mpr spells⟩
      rw [words_iff.mpr words]
      simp
  · have silence : readLine line = .none := by rw [readLine, nothing]
    rw [silence]
    refine iff_of_false nofun ?_
    rintro ⟨tail, _, first, _⟩
    exact silent tail first

structure Note where
  product : String
  method : Method
  url : String
  deriving DecidableEq

namespace Note

def endpoint (n : Note) : Endpoint := ⟨n.url, n.method⟩

def call (n : Note) : Call :=
  { url := n.url, method := n.method, service := Service.named n.product, origin := .comment }

end Note

def note? (line : String) : Option Note :=
  match readLine line with
  | .call product method url => some ⟨product, method, url⟩
  | _ => none

-- The notes of lines, in order; lines that note nothing are passed over.
inductive Notes : List String → List Note → Prop where
  | nil : Notes [] []
  | silent {line : String} {rest : List String} {notes : List Note} :
      (∀ product m url, ¬ Annotates line product m url) → Notes rest notes → Notes (line :: rest) notes
  | noted {line : String} {n : Note} {rest : List String} {notes : List Note} :
      Annotates line n.product n.method n.url → Notes rest notes → Notes (line :: rest) (n :: notes)

def Agree (notes : List Note) : Prop := ∀ a ∈ notes, ∀ b ∈ notes, a.endpoint = b.endpoint → a.product = b.product

-- The first note of an endpoint.
structure First (notes : List Note) (place : Endpoint) (e : Note) : Prop where
  names : e.endpoint = place
  first : ∃ before after, notes = before ++ e :: after ∧ ∀ n ∈ before, n.endpoint ≠ place

theorem first_iff {notes : List Note} {place : Endpoint} {e : Note} :
    First notes place e ↔ notes.find? (·.endpoint = place) = some e := by
  rw [List.find?_eq_some_iff_append]
  simp only [decide_eq_true_eq, Bool.not_eq_true', decide_eq_false_iff_not]
  exact ⟨fun first => ⟨first.names, first.first⟩, fun found => ⟨found.1, found.2⟩⟩

-- A note gives its endpoint to another product than the first note of the endpoint before it.
def Clash (before : List Note) (n : Note) (c : Conflict) : Prop :=
  ∃ e, First before n.endpoint e ∧ e.product ≠ n.product ∧ c = ⟨n.url, n.method, e.product, n.product⟩

def settle (before : List Note) : List Note → Except Conflict (List Call)
  | [] => .ok (before.map Note.call)
  | n :: rest =>
    match before.find? (·.endpoint = n.endpoint) with
    | some e =>
      if e.product = n.product then settle (before ++ [n]) rest
      else .error ⟨n.url, n.method, e.product, n.product⟩
    | none => settle (before ++ [n]) rest

theorem readLines_value {path : Path} {place : Nat} {source : List String} {found : List Call} {before : List Note}
    (known : found.reverse = before.map Note.call) :
    (readLines path place source found).value = settle before (source.filterMap note?) := by
  induction source generalizing place found before with
  | nil =>
    rw [readLines, known]
    rfl
  | cons line rest ih =>
    rw [readLines, List.filterMap_cons, note?]
    cases shown : readLine line with
    | none => exact ih known
    | malformed => exact ih known
    | badMethod text => exact ih known
    | call product method url =>
      let n : Note := ⟨product, method, url⟩
      have next : (record product method url :: found).reverse = (before ++ [n]).map Note.call := by
        rw [List.reverse_cons, known, List.map_append]
        rfl
      have earlier : found.reverse.find? (fun c => c.url == url && c.method == method) =
          (before.find? (·.endpoint = n.endpoint)).map Note.call := by
        have alike : ((fun c : Call => c.url == url && c.method == method) ∘ Note.call) =
            fun e : Note => decide (e.endpoint = n.endpoint) := by
          funext e
          rw [Bool.eq_iff_iff]
          simp [Note.call, Note.endpoint, n]
        rw [known, List.find?_map, alike]
      dsimp only
      rw [earlier, settle]
      cases before.find? (·.endpoint = n.endpoint) with
      | none => exact ih next
      | some e =>
        simp only [Option.map_some, bne_iff_ne, ne_eq, ite_not]
        change (if e.product = product then _ else _ : Noted _).value = _
        split
        · exact ih next
        · rfl

section Settling

variable {before notes : List Note} {n : Note} {c : Conflict}

theorem First.mem {e : Note} {place : Endpoint} (first : First notes place e) : e ∈ notes := by
  obtain ⟨_, _, rfl, _⟩ := first.first
  exact List.mem_append_right _ List.mem_cons_self

theorem first_exists {place : Endpoint} (member : n ∈ notes) (names : n.endpoint = place) : ∃ e, First notes place e := by
  simp only [first_iff]
  exact Option.isSome_iff_exists.mp (List.find?_isSome.mpr ⟨n, member, by simpa using names⟩)

-- Among notes that agree, a further one agrees with all if it agrees with the first of its endpoint.
theorem Agree.snoc (agree : Agree before) (unclashed : ∀ c, ¬ Clash before n c) : Agree (before ++ [n]) := by
  have known : ∀ a ∈ before, a.endpoint = n.endpoint → a.product = n.product := by
    intro a member same
    obtain ⟨e, first⟩ := first_exists member same
    have product : e.product = n.product := by
      by_contra other
      exact unclashed _ ⟨e, first, other, rfl⟩
    rw [← product]
    exact agree a member e first.mem (same.trans first.names.symm)
  intro a first b second same
  rcases List.mem_append.mp first with old | new <;> rcases List.mem_append.mp second with old' | new'
  · exact agree a old b old' same
  · rw [List.mem_singleton.mp new'] at same ⊢
    exact known a old same
  · rw [List.mem_singleton.mp new] at same ⊢
    exact (known b old' same.symm).symm
  · rw [List.mem_singleton.mp new, List.mem_singleton.mp new']

theorem Clash.disagrees (clash : Clash before n c) (rest : List Note) : ¬ Agree (before ++ n :: rest) := by
  obtain ⟨e, first, other, rfl⟩ := clash
  intro agree
  have later : n ∈ before ++ n :: rest := List.mem_append_right _ List.mem_cons_self
  exact other (agree e (List.mem_append_left _ first.mem) n later first.names)

theorem Clash.unique {c' : Conflict} (one : Clash before n c) (two : Clash before n c') : c = c' := by
  obtain ⟨e, first, _, rfl⟩ := one
  obtain ⟨e', first', _, rfl⟩ := two
  rw [Option.some_inj.mp ((first_iff.mp first).symm.trans (first_iff.mp first'))]

theorem settle_clash (clash : Clash before n c) (rest : List Note) : settle before (n :: rest) = .error c := by
  obtain ⟨e, first, other, rfl⟩ := clash
  rw [settle, first_iff.mp first]
  exact if_neg other

theorem settle_unclashed (unclashed : ∀ c, ¬ Clash before n c) (rest : List Note) :
    settle before (n :: rest) = settle (before ++ [n]) rest := by
  rw [settle]
  cases found : before.find? (·.endpoint = n.endpoint) with
  | none => rfl
  | some e =>
    refine if_pos ?_
    by_contra other
    exact unclashed _ ⟨e, first_iff.mpr found, other, rfl⟩

theorem settle_ok (agree : Agree (before ++ notes)) : settle before notes = .ok ((before ++ notes).map Note.call) := by
  induction notes generalizing before with
  | nil => rw [settle, List.append_nil]
  | cons n rest ih =>
    have unclashed : ∀ c, ¬ Clash before n c := fun c clash => clash.disagrees rest agree
    rw [List.append_cons] at agree ⊢
    rw [settle_unclashed unclashed, ih agree]

-- The first note that clashes is reported.
theorem settle_error (agree : Agree before) : settle before notes = .error c ↔
    ∃ done n rest, notes = done ++ n :: rest ∧ Agree (before ++ done) ∧ Clash (before ++ done) n c := by
  induction notes generalizing before with
  | nil => simp [settle]
  | cons n rest ih =>
    by_cases clashes : ∃ c', Clash before n c'
    · obtain ⟨c', clash⟩ := clashes
      rw [settle_clash clash]
      constructor
      · rintro ⟨⟩
        refine ⟨[], n, rest, rfl, ?_, ?_⟩ <;> rwa [List.append_nil]
      · rintro ⟨done, n', rest', split, agree', clash'⟩
        cases done with
        | nil =>
          obtain ⟨rfl, rfl⟩ := List.cons.inj split
          rw [List.append_nil] at clash'
          rw [clash.unique clash']
        | cons d done =>
          obtain ⟨rfl, rfl⟩ := List.cons.inj split
          exact absurd agree' (clash.disagrees done)
    · have unclashed : ∀ c, ¬ Clash before n c := not_exists.mp clashes
      rw [settle_unclashed unclashed, ih (agree.snoc unclashed)]
      constructor
      · rintro ⟨done, n', rest', rfl, agree', clash⟩
        rw [← List.append_cons] at agree' clash
        exact ⟨n :: done, n', rest', rfl, agree', clash⟩
      · rintro ⟨done, n', rest', split, agree', clash⟩
        cases done with
        | nil =>
          obtain ⟨rfl, rfl⟩ := List.cons.inj split
          rw [List.append_nil] at clash
          exact absurd clash (unclashed c)
        | cons d done =>
          obtain ⟨rfl, rfl⟩ := List.cons.inj split
          rw [List.append_cons] at agree' clash
          exact ⟨done, n', rest', rfl, agree', clash⟩

theorem settle_agrees {calls : List Call} (agree : Agree before) (settled : settle before notes = .ok calls) :
    Agree (before ++ notes) := by
  induction notes generalizing before with
  | nil => rwa [List.append_nil]
  | cons n rest ih =>
    have unclashed : ∀ c, ¬ Clash before n c := by
      intro c clash
      rw [settle_clash clash] at settled
      cases settled
    rw [settle_unclashed unclashed] at settled
    rw [List.append_cons]
    exact ih (agree.snoc unclashed) settled

theorem settle_rejects : (∃ c, settle [] notes = .error c) ↔ ¬ Agree notes := by
  constructor
  · rintro ⟨c, rejected⟩ agree
    rw [@settle_ok [] notes agree] at rejected
    cases rejected
  · intro disagree
    cases settled : settle [] notes with
    | error c => exact ⟨c, rfl⟩
    | ok calls => exact absurd (@settle_agrees [] notes _ nofun settled) disagree

end Settling

-- No two lines give one endpoint to different products.
def Consistent (source : List String) : Prop :=
  ∀ line ∈ source, ∀ line' ∈ source, ∀ product product' m url,
    Annotates line product m url → Annotates line' product' m url → product = product'

-- The first line that disagrees with a line before it, and the first line of its endpoint.
def Reports (source : List String) (c : Conflict) : Prop :=
  ∃ before line after earlier first between,
    source = before ++ line :: after ∧ before = earlier ++ first :: between ∧ Consistent before ∧
    Annotates first c.first c.method c.url ∧ Annotates line c.second c.method c.url ∧ c.first ≠ c.second ∧
    ∀ other ∈ earlier, ∀ product, ¬ Annotates other product c.method c.url

theorem filterMap_split {α β : Type} {f : α → Option β} {items : List α} {done rest : List β} {b : β} :
    items.filterMap f = done ++ b :: rest ↔
      ∃ before a after, items = before ++ a :: after ∧ before.filterMap f = done ∧ f a = some b ∧
        after.filterMap f = rest := by
  rw [List.filterMap_eq_append_iff]
  constructor
  · rintro ⟨first, second, rfl, rfl, split⟩
    obtain ⟨silent, a, after, rfl, none, here, rfl⟩ := List.filterMap_eq_cons_iff.mp split
    refine ⟨first ++ silent, a, after, by rw [List.append_assoc], ?_, here, rfl⟩
    rw [List.filterMap_append, List.filterMap_eq_nil_iff.mpr none, List.append_nil]
  · rintro ⟨before, a, after, rfl, rfl, here, rfl⟩
    exact ⟨before, a :: after, rfl, rfl, List.filterMap_cons_some here⟩

section Sources

variable {source : List String} (broken : ∀ line ∈ source, '\n' ∉ line.toList)

theorem note?_iff {line : String} {n : Note} (oneLine : '\n' ∉ line.toList) :
    note? line = some n ↔ Annotates line n.product n.method n.url := by
  rw [← readLine_call oneLine, note?]
  obtain ⟨product, m, url⟩ := n
  cases readLine line <;> simp

include broken

theorem notes_iff {notes : List Note} : Notes source notes ↔ source.filterMap note? = notes := by
  induction source generalizing notes with
  | nil =>
    constructor
    · rintro ⟨⟩
      rfl
    · rintro rfl
      exact .nil
  | cons line rest ih =>
    obtain ⟨here, later⟩ := List.forall_mem_cons.mp broken
    cases known : note? line with
    | none =>
      have silent : ∀ product m url, ¬ Annotates line product m url := fun product m url noted =>
        Option.some_ne_none _ (((note?_iff (n := ⟨product, m, url⟩) here).mpr noted).symm.trans known)
      rw [List.filterMap_cons_none known, ← ih later]
      constructor
      · intro given
        cases given with
        | silent _ given => exact given
        | noted noted _ => exact absurd noted (silent _ _ _)
      · exact .silent silent
    | some n =>
      have noted := (note?_iff here).mp known
      rw [List.filterMap_cons_some known]
      constructor
      · intro given
        cases given with
        | silent silent _ => exact absurd noted (silent _ _ _)
        | noted noted' given =>
          have same := (note?_iff here).mpr noted'
          rw [Option.some_inj.mp (known.symm.trans same), (ih later).mp given]
      · rintro rfl
        exact .noted noted ((ih later).mpr rfl)

theorem mem_notes {n : Note} :
    n ∈ source.filterMap note? ↔ ∃ line ∈ source, Annotates line n.product n.method n.url := by
  rw [List.mem_filterMap]
  exact exists_congr fun line => and_congr_right fun member => note?_iff (broken line member)

theorem consistent_iff : Agree (source.filterMap note?) ↔ Consistent source := by
  constructor
  · intro agree line member line' member' product product' m url noted noted'
    exact agree ⟨product, m, url⟩ ((mem_notes broken).mpr ⟨line, member, noted⟩)
      ⟨product', m, url⟩ ((mem_notes broken).mpr ⟨line', member', noted'⟩) rfl
  · intro consistent a first b second same
    obtain ⟨line, member, noted⟩ := (mem_notes broken).mp first
    obtain ⟨line', member', noted'⟩ := (mem_notes broken).mp second
    obtain ⟨url, method⟩ := Endpoint.mk.inj same
    rw [← url, ← method] at noted'
    exact consistent line member line' member' _ _ _ _ noted noted'

theorem first_lines {m : Method} {url : String} {e : Note} : First (source.filterMap note?) ⟨url, m⟩ e ↔
    e.endpoint = ⟨url, m⟩ ∧ ∃ earlier first between, source = earlier ++ first :: between ∧
      Annotates first e.product m url ∧ ∀ other ∈ earlier, ∀ product, ¬ Annotates other product m url := by
  constructor
  · rintro ⟨names, done, rest, split, apart⟩
    obtain ⟨earlier, line, between, rfl, rfl, known, _⟩ := filterMap_split.mp split
    obtain ⟨early, others⟩ := List.forall_mem_append.mp broken
    have noted := (note?_iff (others line List.mem_cons_self)).mp known
    obtain ⟨rfl, rfl⟩ := Endpoint.mk.inj names
    refine ⟨names, earlier, line, between, rfl, noted, fun other member product shown => ?_⟩
    exact apart ⟨product, e.method, e.url⟩ ((mem_notes early).mpr ⟨other, member, shown⟩) rfl
  · rintro ⟨names, earlier, line, between, rfl, noted, apart⟩
    obtain ⟨early, others⟩ := List.forall_mem_append.mp broken
    obtain ⟨rfl, rfl⟩ := Endpoint.mk.inj names
    have known := (note?_iff (n := e) (others line List.mem_cons_self)).mpr noted
    refine ⟨rfl, _, _, filterMap_split.mpr ⟨earlier, line, between, rfl, rfl, known, rfl⟩, fun n member same => ?_⟩
    obtain ⟨other, inside, shown⟩ := (mem_notes early).mp member
    obtain ⟨url, method⟩ := Endpoint.mk.inj same
    rw [url, method] at shown
    exact apart other inside n.product shown

theorem reports_iff {c : Conflict} : settle [] (source.filterMap note?) = .error c ↔ Reports source c := by
  rw [settle_error fun _ member => absurd member List.not_mem_nil]
  constructor
  · rintro ⟨_, n, _, split, agree, e, first, other, rfl⟩
    obtain ⟨before, line, after, rfl, rfl, known, _⟩ := filterMap_split.mp split
    obtain ⟨early, others⟩ := List.forall_mem_append.mp broken
    have noted := (note?_iff (others line List.mem_cons_self)).mp known
    obtain ⟨_, earlier, line', between, whole, noted', apart⟩ := (first_lines early).mp first
    exact ⟨before, line, after, earlier, line', between, rfl, whole, (consistent_iff early).mp agree, noted', noted,
      other, apart⟩
  · rintro ⟨before, line, after, earlier, line', between, rfl, whole, consistent, noted', noted, other, apart⟩
    obtain ⟨early, others⟩ := List.forall_mem_append.mp broken
    let n : Note := ⟨c.second, c.method, c.url⟩
    let e : Note := ⟨c.first, c.method, c.url⟩
    have known := (note?_iff (n := n) (others line List.mem_cons_self)).mpr noted
    have first : First (before.filterMap note?) n.endpoint e :=
      (first_lines early).mpr ⟨rfl, earlier, line', between, whole, noted', apart⟩
    exact ⟨_, n, _, filterMap_split.mpr ⟨before, line, after, rfl, rfl, known, rfl⟩, (consistent_iff early).mpr consistent,
      e, first, other, rfl⟩

end Sources

-- What the calls of a file are by its lines.
structure Annotated (source : List String) (result : Except Conflict (List Call)) : Prop where
  rejected : (∃ c, result = .error c) ↔
    ∃ line ∈ source, ∃ line' ∈ source, ∃ product product' m url,
      Annotates line product m url ∧ Annotates line' product' m url ∧ product ≠ product'
  reported : ∀ c, result = .error c ↔ Reports source c
  recorded : Consistent source → ∃ notes, Notes source notes ∧ result = .ok (notes.map Note.call)

theorem calls_value (file : Go.SourceFile) :
    (calls file).value = settle [] ((lines file.source).filterMap note?) :=
  readLines_value rfl

theorem calls_annotated (file : Go.SourceFile) :
    Annotated (lines file.source) (calls file).value ∧
      ∀ other : Go.SourceFile, (∀ notes, Notes (lines other.source) notes ↔ Notes (lines file.source) notes) →
        (calls other).value = (calls file).value := by
  have broken : ∀ file : Go.SourceFile, ∀ line ∈ lines file.source, '\n' ∉ line.toList :=
    fun _ _ member => lines_whole member
  refine ⟨⟨?rejected, ?reported, ?recorded⟩, ?silent⟩
  case rejected =>
    rw [calls_value, settle_rejects, consistent_iff (broken file), Consistent]
    push Not
    rfl
  case reported =>
    intro c
    rw [calls_value]
    exact reports_iff (broken file)
  case recorded =>
    intro consistent
    refine ⟨_, (notes_iff (broken file)).mpr rfl, ?_⟩
    rw [calls_value]
    exact @settle_ok [] _ ((consistent_iff (broken file)).mpr consistent)
  case silent =>
    intro other same
    rw [calls_value, calls_value]
    have notes := (same _).mpr ((notes_iff (broken file)).mpr rfl)
    rw [(notes_iff (broken other)).mp notes]

-- The second line gives an endpoint to another product; the first one notes nothing.
def sharedPorts (first : String) : Go.SourceFile where
  path := ⟨"resource_ports.go"⟩
  source := first ++ "\n// API: VPC GET /v1/ports\n// API: DNS get /v1/ports\n"
  package := some "vpc"
  imports := []
  functions := []
  literals := []

theorem calls_annotated_ports :
    (calls (sharedPorts "// API: VPC FETCH /v1/ports")).value =
        .error ⟨"/v1/ports", .get, "VPC", "DNS"⟩ ∧
      (calls (sharedPorts "// API: /v1/ports")).value = .error ⟨"/v1/ports", .get, "VPC", "DNS"⟩ := by
  have broken : ∀ first, ∀ line ∈ lines (sharedPorts first).source, '\n' ∉ line.toList :=
    fun _ _ member => lines_whole member
  have noted : (lines (sharedPorts "// API: VPC FETCH /v1/ports").source).filterMap note? =
      [⟨"VPC", .get, "/v1/ports"⟩, ⟨"DNS", .get, "/v1/ports"⟩] := by decide +kernel
  have same : (lines (sharedPorts "// API: /v1/ports").source).filterMap note? =
      [⟨"VPC", .get, "/v1/ports"⟩, ⟨"DNS", .get, "/v1/ports"⟩] := by decide +kernel
  obtain ⟨annotated, silent⟩ := calls_annotated (sharedPorts "// API: VPC FETCH /v1/ports")
  have rejected : (calls (sharedPorts "// API: VPC FETCH /v1/ports")).value =
      .error ⟨"/v1/ports", .get, "VPC", "DNS"⟩ := by
    rw [annotated.reported, ← reports_iff (broken _), noted]
    rfl
  refine ⟨rejected, ?_⟩
  rw [← rejected]
  refine silent _ fun notes => ?_
  rw [notes_iff (broken _), notes_iff (broken _), same, noted]

end CallAtlas.ApiComment
