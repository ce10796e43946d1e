import CallAtlas.Catalog.Index
import CallAtlas.Proofs.Data.Readable
import CallAtlas.Proofs.Text.Readings

namespace CallAtlas.Catalog

open CallAtlas.Text CallAtlas.Text.Pattern

def LiteralBehind (opening : String) (text key rest : List Char) : Prop :=
  '"' ∉ key ∧ text = opening.toList ++ (key ++ '"' :: rest)

def OpensLiteral (text : List Char) : Prop := ∃ key rest, LiteralBehind ", \"" text key rest

-- Of the places on a line where a literal follows a comma, the last one.
structure LastArgument (text front behind : List Char) : Prop where
  written : text = front ++ behind
  inLine : '\n' ∉ front
  opens : OpensLiteral behind
  last : ∀ longer more, text = longer ++ more → '\n' ∉ longer → OpensLiteral more → longer.length ≤ front.length

-- A constructor call at the beginning of a text, with the key that it names: the first argument of
-- `NewServiceClient`, and the last literal on the line of `NewHcClient`.
def Names : Style → List Char → List Char → List Char → Prop
  | .service, text, key, rest => LiteralBehind "NewServiceClient(\"" text key rest
  | .hc, text, key, rest =>
    ∃ call front behind, text = "NewHcClient(".toList ++ call ∧ LastArgument call front behind ∧
      LiteralBehind ", \"" behind key rest

def Constructs (style : Style) (source : String) : Prop := ∃ lead, StandsAt (ReadHere (Names style)) source.toList lead

-- The calls of a text are read from left to right, each up to the quote behind its key.
def LastKey (style : Style) (source key : String) : Prop :=
  ∃ earlier, ReadsAll (Names style) source.toList (earlier ++ [key.toList])

section Calls

variable {opening : String} {text key key' rest rest' front behind front' behind' : List Char}

theorem all_notQuote : text.all isNotQuote = true ↔ '"' ∉ text := by
  simp only [List.all_eq_true, isNotQuote, bne_iff_ne]
  exact ⟨fun each member => each _ member rfl, fun none c member same => none (same ▸ member)⟩

theorem between_literal : Between opening isNotQuote "\"" text key rest ↔ LiteralBehind opening text key rest := by
  constructor
  · intro between
    exact ⟨all_notQuote.mp between.fits, between.written⟩
  · rintro ⟨unquoted, rfl⟩
    exact between_of_ends (c := '"') rfl (by decide) (all_notQuote.mpr unquoted)

theorem LiteralBehind.unique (one : LiteralBehind opening text key rest) (two : LiteralBehind opening text key' rest') :
    key = key' ∧ rest = rest' :=
  (between_literal.mpr one).unique (between_literal.mpr two)

theorem LastArgument.unique (one : LastArgument text front behind) (two : LastArgument text front' behind') :
    front = front' ∧ behind = behind' := by
  have size : front.length = front'.length :=
    Nat.le_antisymm (two.last _ _ one.written one.inLine one.opens) (one.last _ _ two.written two.inLine two.opens)
  exact List.append_inj (one.written.symm.trans two.written) size

theorem names_reading (style : Style) : Reading (Names style) := by
  cases style with
  | service =>
    refine ⟨LiteralBehind.unique, ?_⟩
    rintro text key rest ⟨_, rfl⟩
    exact ⟨'N', "ewServiceClient(\"".toList ++ (key ++ ['"']), by simp⟩
  | hc =>
    constructor
    · rintro text key key' rest rest' ⟨call, front, behind, rfl, last, literal⟩
      rintro ⟨call', front', behind', same, last', literal'⟩
      obtain rfl := List.append_cancel_left same
      obtain ⟨rfl, rfl⟩ := last.unique last'
      exact literal.unique literal'
    · rintro text key rest ⟨call, front, behind, rfl, last, _, rfl⟩
      refine ⟨'N', "ewHcClient(".toList ++ (front ++ (", \"".toList ++ (key ++ ['"']))), ?_⟩
      rw [last.written]
      simp

theorem service_readsAs : Style.service.pattern.ReadsAs oneGroup (Names .service) := by
  have same : Names .service = Between "NewServiceClient(\"" isNotQuote "\"" := by
    funext text key rest
    exact propext between_literal.symm
  rw [same]
  exact between_readsAs (by decide)

theorem hc_readsAs : Style.hc.pattern.ReadsAs oneGroup (Names .hc) := by
  have literals (s : State) :
      (run (Pattern.between ", \"" isNotQuote "\"") s).isSome = true ↔ OpensLiteral s.rest := by
    rw [between_passable]
    simp only [OpensLiteral, LiteralBehind, all_notQuote]
    exact exists_congr fun key => exists_congr fun rest => and_comm
  refine readsAs_of (names_reading .hc) ?_ ?_
  · intro s t ran fresh
    obtain ⟨_, _, here, ran⟩ := run_cons_text ran
    obtain ⟨front, behind, whole, line, goesOn, longest⟩ := manyThen_longest ran
    obtain ⟨key, between, groups⟩ := run_between goesOn
    have literal := between_literal.mp between
    refine ⟨key, ⟨_, front, behind, here, ⟨whole, inLine_iff.mp line, ⟨key, t.rest, literal⟩, ?_⟩, literal⟩, ?_⟩
    · intro longer more whole' line' opens
      exact longest longer more whole' (inLine_iff.mpr line') ((literals _).mpr opens)
    · rw [groups, fresh]
      rfl
  · rintro s key rest ⟨call, front, behind, here, last, literal⟩
    refine run_goesOn (.text here) (run_goesOn (.many (inLine_iff.mpr last.inLine) last.written) ?_)
    exact (literals _).mpr last.opens

theorem pattern_readsAs (style : Style) : style.pattern.ReadsAs oneGroup (Names style) := by
  cases style with
  | service => exact service_readsAs
  | hc => exact hc_readsAs

end Calls

section Functions

variable {style : Style} {source key key' : String} {f : Go.Function}

theorem constructs_iff : Constructs style source ↔ style.pattern.occurs source = true := by
  rw [occurs, ← Option.not_isNone, Bool.not_eq_true', ← Bool.not_eq_true, Option.isNone_iff_eq_none,
    find?_none (pattern_readsAs style).here, not_forall]
  simp only [not_not, Constructs]

instance : Decidable (Constructs style source) := decidable_of_iff _ constructs_iff.symm

theorem keyIn?_exact : Index.keyIn? style f = some key ↔ LastKey style f.source key := by
  obtain ⟨keys, all, found⟩ := (pattern_readsAs style).findAll_reads (names_reading style) f.source
  have read : Index.keyIn? style f = keys.getLast?.map String.ofList := by
    have groups := congrArg (fun l => (l.map fun g : List String => g.getD 0 "").getLast?) found
    rw [List.map_map, List.map_map, List.getLast?_map, List.getLast?_map] at groups
    exact groups
  rw [read, Option.map_eq_some_iff]
  constructor
  · rintro ⟨last, isLast, rfl⟩
    obtain ⟨earlier, rfl⟩ := List.getLast?_eq_some_iff.mp isLast
    exact ⟨earlier, by rwa [String.toList_ofList]⟩
  · rintro ⟨earlier, all'⟩
    rw [all.unique (names_reading style) all', List.getLast?_concat]
    exact ⟨key.toList, rfl, String.ofList_toList⟩

theorem keyIn?_none : Index.keyIn? style f = none ↔ ¬ Constructs style f.source := by
  obtain ⟨keys, all, found⟩ := (pattern_readsAs style).findAll_reads (names_reading style) f.source
  have size := congrArg List.length found
  rw [List.length_map, List.length_map] at size
  rw [Index.keyIn?, Option.map_eq_none_iff, List.getLast?_eq_none_iff, ← List.length_eq_zero_iff, size,
    List.length_eq_zero_iff, all.nil_iff (names_reading style), Constructs, not_exists]
  refine forall_congr' fun lead => ?_
  constructor
  · rintro nothing ⟨rest, whole, read⟩
    exact nothing rest whole read
  · intro nothing rest whole read
    exact nothing ⟨rest, whole, read⟩

end Functions

structure Ingestion where
  file : Go.SourceFile
  style : Style

def Index.after (steps : List Ingestion) : Index :=
  steps.foldl (fun index step => (index.ingest step.file step.style).1) {}

-- The functions of all files in the order in which they are met, each with the style of its file.
def declarations (steps : List Ingestion) : List (Style × Go.Function) :=
  steps.flatMap fun step => step.file.functions.map (step.style, ·)

-- The last function of a name that contains a constructor call, and its last key.
def LastNamed (steps : List Ingestion) (name key : String) : Prop :=
  ∃ earlier d later, declarations steps = earlier ++ d :: later ∧ d.2.name = name ∧ LastKey d.1 d.2.source key ∧
    ∀ other ∈ later, other.2.name = name → ¬ Constructs other.1 other.2.source

namespace Index

variable {index : Index} {file : Go.SourceFile} {style : Style} {steps : List Ingestion} {name key : String}

def pair? (d : Style × Go.Function) : Option (String × String) := (keyIn? d.1 d.2).map (d.2.name, ·)

def entriesOf (declared : List (Style × Go.Function)) : List (String × String) := declared.filterMap pair?

-- What one function adds.
def entering (style : Style) (now : Index × Nat) (f : Go.Function) : Index × Nat :=
  match keyIn? style f with
  | some key => (⟨now.1.keys.insert f.name key⟩, now.2 + 1)
  | none => now

theorem ingest_exact (index : Index) (file : Go.SourceFile) (style : Style) :
    index.ingest file style =
      (⟨(entriesOf (file.functions.map (style, ·))).foldl (fun m e => m.insert e.1 e.2) index.keys⟩,
        file.functions.countP fun f => Constructs style f.source) := by
  have each : ∀ (functions : List Go.Function) (now : Index × Nat), functions.foldl (entering style) now =
      (⟨(entriesOf (functions.map (style, ·))).foldl (fun m e => m.insert e.1 e.2) now.1.keys⟩,
        now.2 + functions.countP fun f => Constructs style f.source) := by
    intro functions
    induction functions with
    | nil => exact fun _ => rfl
    | cons f rest ih =>
      intro now
      rw [List.foldl_cons, List.map_cons, entriesOf, List.filterMap_cons, pair?, entering, List.countP_cons]
      cases found : keyIn? style f with
      | none =>
        simp only [Option.map_none, keyIn?_none.mp found, decide_false, Bool.false_eq_true, if_false, Nat.add_zero]
        exact ih now
      | some key =>
        have constructs : Constructs style f.source := by
          refine Decidable.byContradiction fun none => ?_
          rw [keyIn?_none.mpr none] at found
          cases found
        simp only [Option.map_some, constructs, decide_true, if_true, ih, List.foldl_cons]
        refine congrArg (Prod.mk _) ?_
        omega
  exact (each file.functions (index, 0)).trans (by rw [Nat.zero_add])

theorem after_keys (steps : List Ingestion) :
    (after steps).keys = SortedMap.ofList (entriesOf (declarations steps)) := by
  have each : ∀ (steps : List Ingestion) (index : Index),
      (steps.foldl (fun index step => (index.ingest step.file step.style).1) index).keys =
        (entriesOf (declarations steps)).foldl (fun m e => m.insert e.1 e.2) index.keys := by
    intro steps
    induction steps with
    | nil => exact fun _ => rfl
    | cons step rest ih =>
      intro index
      have parts : entriesOf (declarations (step :: rest)) =
          entriesOf (step.file.functions.map (step.style, ·)) ++ entriesOf (declarations rest) := by
        rw [declarations, List.flatMap_cons, entriesOf, List.filterMap_append]
        rfl
      rw [List.foldl_cons, ih, ingest_exact, parts, List.foldl_append]
  exact each steps {}

theorem entriesOf_none {declared : List (Style × Go.Function)} :
    (∀ e ∈ entriesOf declared, e.1 ≠ name) ↔ ∀ d ∈ declared, d.2.name = name → ¬ Constructs d.1 d.2.source := by
  constructor
  · intro none d member same constructs
    cases found : keyIn? d.1 d.2 with
    | none => exact keyIn?_none.mp found constructs
    | some key => exact none _ (List.mem_filterMap.mpr ⟨d, member, by rw [pair?, found]; rfl⟩) same
  · intro none e member same
    obtain ⟨d, inside, made⟩ := List.mem_filterMap.mp member
    obtain ⟨key, found, rfl⟩ := Option.map_eq_some_iff.mp made
    have absent := keyIn?_none.mpr (none d inside same)
    rw [found] at absent
    cases absent

theorem lastEntry_entriesOf {declared : List (Style × Go.Function)} :
    LastEntry (entriesOf declared) name key ↔
      ∃ earlier d later, declared = earlier ++ d :: later ∧ d.2.name = name ∧ LastKey d.1 d.2.source key ∧
        ∀ other ∈ later, other.2.name = name → ¬ Constructs other.1 other.2.source := by
  induction declared with
  | nil => simp only [entriesOf, List.filterMap_nil]; exact ⟨nofun, by simp⟩
  | cons d rest ih =>
    have split : LastEntry (entriesOf (d :: rest)) name key ↔ LastEntry (entriesOf rest) name key ∨
        pair? d = some (name, key) ∧ ∀ e ∈ entriesOf rest, e.1 ≠ name := by
      rw [entriesOf, List.filterMap_cons]
      cases made : pair? d with
      | none => simp [entriesOf]
      | some e => simp [entriesOf, lastEntry_cons]
    have here : pair? d = some (name, key) ↔ d.2.name = name ∧ LastKey d.1 d.2.source key := by
      rw [pair?, Option.map_eq_some_iff, ← keyIn?_exact]
      constructor
      · rintro ⟨_, found, same⟩
        cases same
        exact ⟨rfl, found⟩
      · rintro ⟨rfl, found⟩
        exact ⟨key, found, rfl⟩
    rw [split, ih, here, entriesOf_none]
    constructor
    · rintro (⟨earlier, x, later, rfl, last⟩ | ⟨⟨named, last⟩, none⟩)
      · exact ⟨d :: earlier, x, later, rfl, last⟩
      · exact ⟨[], d, rest, rfl, named, last, none⟩
    · rintro ⟨earlier, x, later, whole, named, last, none⟩
      cases earlier with
      | nil =>
        obtain ⟨rfl, rfl⟩ := List.cons.inj whole
        exact .inr ⟨⟨named, last⟩, none⟩
      | cons y earlier =>
        obtain ⟨rfl, rfl⟩ := List.cons.inj whole
        exact .inl ⟨earlier, x, later, rfl, named, last, none⟩

theorem category?_after : (after steps).category? name = some key ↔ LastNamed steps name key := by
  rw [category?, after_keys, SortedMap.get?_ofList, lastEntry_entriesOf]
  rfl

theorem category?_after_none : (after steps).category? name = none ↔
    ∀ d ∈ declarations steps, d.2.name = name → ¬ Constructs d.1 d.2.source := by
  rw [← entriesOf_none, category?, after_keys, Option.eq_none_iff_forall_ne_some]
  simp only [ne_eq, SortedMap.get?_ofList]
  exact lastEntry_none

-- Entries that are set a second time are there already.
theorem reingest (sorted : index.keys.Sorted) :
    (index.ingest file style).1.ingest file style = index.ingest file style := by
  simp only [ingest_exact, Prod.mk.injEq, and_true, Index.mk.injEq]
  have once := sorted.foldl_insert (entriesOf (file.functions.map (style, ·)))
  refine (once.foldl_insert _).ext once fun name => Option.ext fun key => ?_
  simp only [SortedMap.get?_foldl_insert_last]
  constructor
  · rintro (last | ⟨_, before⟩)
    · exact .inl last
    · exact before
  · rintro (last | ⟨none, before⟩)
    · exact .inl last
    · exact .inr ⟨none, .inr ⟨none, before⟩⟩

theorem index_by_history (steps : List Ingestion) :
    (∀ name key, (after steps).category? name = some key ↔ LastNamed steps name key) ∧
    (∀ name, (after steps).category? name = none ↔
      ∀ d ∈ declarations steps, d.2.name = name → ¬ Constructs d.1 d.2.source) ∧
    (∀ file style, ((after steps).ingest file style).2 = file.functions.countP fun f => Constructs style f.source) ∧
    (∀ file style, ((after steps).ingest file style).1.ingest file style = (after steps).ingest file style) ∧
    ∀ name key, (after steps).category? name = some key → (after steps).categoryOrSuffix? name = some key := by
  refine ⟨fun name key => category?_after, fun name => category?_after_none, fun file style => ?_, fun file style => ?_,
    fun name key found => ?_⟩
  · rw [ingest_exact]
  · refine reingest ?_
    rw [after_keys]
    exact SortedMap.ofList_sorted _
  · rw [categoryOrSuffix?, found]

end Index

end CallAtlas.Catalog
