import CallAtlas.Proofs.Go.FunctionTexts
import CallAtlas.Proofs.Go.JoinedTexts
import CallAtlas.Proofs.Go.Joins
import CallAtlas.Proofs.Text.Fields
import Mathlib.Data.List.Basic

namespace CallAtlas.Go

open CallAtlas.Text

namespace Grammar

open Rule

theorem tokens_ended (source : String) : Ended (tokens source) := by
  obtain ⟨lead, rest, _, same⟩ := tokens_eq source
  rw [same]
  exact tokensFrom_ended 0 _ rest

theorem parse?_plain {source : String} {placed : List Placed} (read : parse? source = some placed) :
    ∀ t ∈ tokens source, t.kind ≠ .stray := by
  refine items_unread plain_unread (fun t eof => ?_) (tokens_ended source) read
  intro u member
  cases List.mem_singleton.mp member
  rw [eof]
  nofun

-- Of a list that is closed the last token is no bracket.
theorem balanced_concat {d : Nat} {X : List Token} {last : Token} (eof : last.kind = .eof) :
    Balanced d (X ++ [last]) ↔ Balanced d X := by
  induction X generalizing d with
  | nil =>
    have opens : last.opens = false := by simp [Token.opens, Token.isMark, eof]
    have closes : last.closes = false := by simp [Token.closes, Token.isMark, eof]
    exact balanced_plain opens closes
  | cons t X ih => simp only [List.cons_append, Balanced, ih]

-- The tokens of the lines behind a source are those of these lines alone, further behind and at the beginning
-- of a line.
theorem tokens_behind {tail : String} (unmarked : ¬ Marked tail) (q : Place) :
    ∃ t more b comments, (tokens tail).map (Token.shift (q.at_ + 1) q.line) = t :: more ∧ b = true ∧
      tokensFrom 0 { q.pass '\n' with newline := true } tail.toList = { t with newline := b, comments := comments } :: more := by
  let p : Place := Place.shift (q.at_ + 1) q.line ⟨0, 1, false, []⟩
  obtain ⟨t, more, b, comments, alone, joined, begun⟩ := tokensFrom_begin 0 p true q.comments tail.toList
  have same : ({ p with newline := true, comments := q.comments } : Place) = { q.pass '\n' with newline := true } := by
    simp [p, Place.shift, Place.pass, Nat.add_comm]
    rfl
  rw [same] at joined
  refine ⟨t, more, b, comments, ?_, begun rfl, joined⟩
  rw [tokens_unmarked unmarked, ← tokensFrom_shift]
  exact alone

-- The items of a source, and then those of the lines behind it.
theorem parse?_append {source tail : String} {placed : List Placed} (read : parse? source = some placed)
    (closed : CommentOpen (tokens source) → contains tail "*/" = false) (unmarked : ¬ Marked tail) :
    ∃ lines, parse? (source ++ "\n" ++ tail) = (parse? tail).map fun later =>
      placed ++ later.map (Placed.shift (byteLength source.toList + 1) lines) := by
  obtain ⟨X, q, one, place, whole⟩ := tokens_append (parse?_plain read) closed
  let last : Token := .ending q.at_ q.line q.newline q.comments
  have eof : last.kind = .eof := rfl
  have ended : Ended (X ++ [last]) := one ▸ tokens_ended source
  have balanced : Balanced 0 X := by
    refine (balanced_concat eof).mp (one ▸ ?_)
    exact items_unread balanced_unread (fun t eof => (balanced_concat (X := []) eof).mpr rfl) (tokens_ended source) read
  obtain ⟨t, more, b, comments, behind, begins, joined⟩ := tokens_behind unmarked q
  rw [joined] at whole
  let n := itemRoom (tokens (source ++ "\n" ++ tail))
  have room : n = 2 * (X.length + (tokens tail).length) + 8 := by
    have size : (tokens tail).length = more.length + 1 := by
      have same := congrArg List.length behind
      rwa [List.length_map, List.length_cons] at same
    simp only [n, whole, itemRoom, List.length_append, List.length_cons, size]
  have light : weightOf (tokens source) = weightOf X := by
    rw [one, weightOf_append]
    rfl
  have few : placed.length ≤ 2 * X.length := by
    have bound := items_length read
    have heavy := weightOf_le X
    omega
  have read' : items n (X ++ [last]) = some placed := by
    rw [← read, parse?, ← one]
    refine items_enough ?_ (itemRoom_enough _)
    have heavy := weightOf_le X
    omega
  have rest : items (n - placed.length) (t :: more) = (parse? tail).map (·.map (Placed.shift (q.at_ + 1) q.line)) := by
    rw [← behind, items_shift, parse?]
    congr 1
    refine items_enough ?_ (itemRoom_enough _)
    have heavy := weightOf_le (tokens tail)
    omega
  refine ⟨q.line, ?_⟩
  rw [← place]
  change items n (tokens (source ++ "\n" ++ tail)) = _
  rw [whole, items_append eof begins balanced ended read', items_begin, rest, Option.map_map]
  rfl

-- A byte order mark behind a source is no token of it.
theorem parse?_marked {source tail : String} {placed : List Placed} (read : parse? source = some placed)
    (closed : CommentOpen (tokens source) → contains tail "*/" = false) (marked : Marked tail) : parse? (source ++ "\n" ++ tail) = none := by
  obtain ⟨X, q, _, _, whole⟩ := tokens_append (parse?_plain read) closed
  obtain ⟨c, head, mark⟩ := marked
  obtain ⟨t, member, stray⟩ := tokensFrom_marked head mark { q.pass '\n' with newline := true }
  cases joined : parse? (source ++ "\n" ++ tail) with
  | none => rfl
  | some placed => exact absurd stray (parse?_plain joined t (whole ▸ List.mem_append_right X member))

end Grammar

namespace Grammar

def declaredIn (chars : List Char) (items : List Placed) : List (String × String × String) :=
  items.filterMap fun p => (p.function? chars).map Function.declared

theorem declaredIn_append {chars : List Char} {items : List Placed} (inside : ∀ p ∈ items, p.Inside chars)
    (tail : List Char) (later : List Placed) (lines : Nat) :
    declaredIn (chars ++ '\n' :: tail) (items ++ later.map (Placed.shift (byteLength chars + 1) lines)) =
      declaredIn chars items ++ declaredIn tail later := by
  have behind : chars ++ '\n' :: tail = (chars ++ ['\n']) ++ tail := by simp
  have size : byteLength chars + 1 = byteLength (chars ++ ['\n']) := by
    rw [byteLength_append]
    rfl
  rw [declaredIn, List.filterMap_append, List.filterMap_map]
  congr 1
  · exact List.filterMap_congr fun p member => by rw [(inside p member).function?]
  · refine List.filterMap_congr fun p _ => ?_
    rw [Function.comp_apply, behind, size]
    exact function?_shift _ tail lines p

end Grammar

namespace SourceFile

def declared (file : SourceFile) : List (String × String × String) := file.functions.map Function.declared

theorem ofText_parse? {path : Path} {source : String} {file : SourceFile} (read : ofText path source = .ok file) :
    ∃ items, Grammar.parse? source = some items ∧
      file.declared = Grammar.declaredIn source.toList items ∧ file.imports = items.flatMap (·.item.importList) := by
  unfold ofText at read
  split at read
  · cases read
  · rename_i items parsed
    cases read
    exact ⟨items, parsed, List.map_filterMap, rfl⟩

theorem ofText_of_parse? {source : String} {items : List Grammar.Placed} (parsed : Grammar.parse? source = some items)
    (path : Path) : ∃ file, ofText path source = .ok file ∧
      file.declared = Grammar.declaredIn source.toList items ∧ file.imports = items.flatMap (·.item.importList) := by
  unfold ofText
  rw [parsed]
  exact ⟨_, rfl, List.map_filterMap, rfl⟩

def outline (file : SourceFile) : List (String × String × String) × List Import := (file.declared, file.imports)

theorem ofText_outline {path : Path} {source : String} {declares : List (String × String × String) × List Import}
    (read : (ofText path source).toOption.map outline = some declares) :
    ∃ file, ofText path source = .ok file ∧ file.declared = declares.1 ∧ file.imports = declares.2 := by
  cases found : ofText path source with
  | error e => rw [found] at read; cases read
  | ok file =>
    rw [found] at read
    cases read
    exact ⟨file, rfl, rfl, rfl⟩

-- A file declares its own functions and imports, and then those of the lines behind it.
theorem ofText_append {path : Path} {source tail : String} {file : SourceFile} (read : ofText path source = .ok file)
    (closed : CommentOpen (tokens source) → contains tail "*/" = false) {functions : List (String × String × String)} {imports : List Import} :
    (∃ joined, ofText path (source ++ "\n" ++ tail) = .ok joined ∧ joined.declared = file.declared ++ functions ∧
        joined.imports = file.imports ++ imports) ↔
      ¬ Marked tail ∧ ∃ alone, ofText path tail = .ok alone ∧ alone.declared = functions ∧ alone.imports = imports := by
  obtain ⟨items, parsed, declared, imports'⟩ := ofText_parse? read
  have inside := Grammar.items_inside (Grammar.tokens_standing source) parsed
  by_cases marked : Marked tail
  · refine ⟨?_, fun whole => absurd marked whole.1⟩
    rintro ⟨joined, read', _⟩
    obtain ⟨_, parsed', _⟩ := ofText_parse? read'
    rw [Grammar.parse?_marked parsed closed marked] at parsed'
    cases parsed'
  obtain ⟨lines, whole⟩ := Grammar.parse?_append parsed closed marked
  have text : (source ++ "\n" ++ tail).toList = source.toList ++ '\n' :: tail.toList := by simp
  have both (later : List Grammar.Placed) :
      (items ++ later.map (Grammar.Placed.shift (byteLength source.toList + 1) lines)).flatMap (·.item.importList) =
        file.imports ++ later.flatMap (·.item.importList) := by
    rw [List.flatMap_append, List.flatMap_map, imports']
    rfl
  constructor
  · rintro ⟨joined, read', same, same'⟩
    obtain ⟨items', parsed', declared', imports''⟩ := ofText_parse? read'
    rw [whole] at parsed'
    obtain ⟨later, alone, rfl⟩ := Option.map_eq_some_iff.mp parsed'
    obtain ⟨tailFile, readTail, declaredTail, importsTail⟩ := ofText_of_parse? alone path
    rw [text, Grammar.declaredIn_append inside, ← declared, ← declaredTail] at declared'
    rw [both, ← importsTail] at imports''
    exact ⟨marked, tailFile, readTail, List.append_cancel_left (declared'.symm.trans same),
      List.append_cancel_left (imports''.symm.trans same')⟩
  · rintro ⟨_, tailFile, readTail, rfl, rfl⟩
    obtain ⟨later, alone, declaredTail, importsTail⟩ := ofText_parse? readTail
    rw [alone] at whole
    obtain ⟨joined, read', declared', imports''⟩ := ofText_of_parse? whole path
    rw [text, Grammar.declaredIn_append inside, ← declared, ← declaredTail] at declared'
    rw [both, ← importsTail] at imports''
    exact ⟨joined, read', declared', imports''⟩

-- A line feed more at the end of a file declares nothing.
theorem ofText_feed {path : Path} {source : String} {file : SourceFile} (read : ofText path source = .ok file) :
    ∃ file', ofText path (source ++ "\n") = .ok file' ∧ file'.declared = file.declared ∧ file'.imports = file.imports := by
  have parsed : Grammar.parse? "" = some [] := rfl
  have empty : ∃ none, ofText path "" = .ok none ∧ none.declared = [] ∧ none.imports = [] := ofText_of_parse? parsed path
  have unmarked : ¬ Marked "" := by rintro ⟨c, head, _⟩; cases head
  have further := (ofText_append read fun _ => rfl).mpr ⟨unmarked, empty⟩
  rwa [String.append_empty, List.append_nil, List.append_nil] at further

end SourceFile

def isClause (line : String) : Bool := startsWith (trimStart line) "package "

-- The lines of a companion to the first that begins with a package clause.
def dropped (companion : String) : String :=
  let rest := (lines companion).dropWhile fun l => !isClause l
  join "\n" ((lines companion).takeWhile (fun l => !isClause l) ++ rest.take 1)

-- The lines behind it, with the line feed that ends them.
def kept (companion : String) : String :=
  let rest := (lines companion).dropWhile fun l => !isClause l
  (if rest.isEmpty then companion else join "\n" (rest.drop 1)) ++ "\n"

theorem appendCompanion_eq (resource companion : String) :
    appendCompanion resource companion = resource ++ "\n" ++ kept companion :=
  String.append_assoc

-- What is kept of a companion declares by itself what the companion does.
def KeepsAll (path : Path) (companion : String) : Prop :=
  ¬ Marked (kept companion) ∧ ∃ file keeps, SourceFile.ofText path companion = .ok file ∧
    SourceFile.ofText path (kept companion) = .ok keeps ∧ keeps.declared = file.declared ∧ keeps.imports = file.imports

theorem dropped_kept {companion : String} (bare : '\r' ∉ companion.toList)
    (clause : ∃ l ∈ lines companion, isClause l = true) : ∃ feeds ∈ ["", "\n", "\n" ++ "\n"],
      dropped companion ++ "\n" ++ kept companion = companion ++ feeds := by
  obtain ⟨l, member, begins⟩ := clause
  have ends := join_lines bare
  have parts := List.takeWhile_append_dropWhile (p := fun l => !isClause l) (l := lines companion)
  unfold dropped kept
  cases rest : (lines companion).dropWhile fun l => !isClause l with
  | nil =>
    have other := List.dropWhile_eq_nil_iff.mp rest l member
    rw [begins] at other
    cases other
  | cons clause after =>
    generalize (lines companion).takeWhile (fun l => !isClause l) = before at parts ⊢
    rw [rest, List.append_cons] at parts
    dsimp only
    have filled : before ++ [clause] ≠ [] := by simp
    cases after with
    | nil =>
      rw [List.append_nil] at parts
      rw [← parts] at ends
      change ∃ feeds ∈ _, join "\n" (before ++ [clause]) ++ "\n" ++ ("" ++ "\n") = companion ++ feeds
      rw [String.empty_append]
      rcases ends with feed | same
      · exact ⟨"\n" ++ "\n", by simp, by rw [feed, String.append_assoc]⟩
      · exact ⟨"\n", by simp, by rw [same]⟩
    | cons next more =>
      have whole : join "\n" (lines companion) = join "\n" (before ++ [clause]) ++ "\n" ++ join "\n" (next :: more) := by
        rw [← parts]
        exact String.intercalate_append_of_ne_nil filled (List.cons_ne_nil _ _)
      rw [whole, String.append_assoc] at ends
      rcases ends with feed | same
      · exact ⟨"\n", by simp, feed⟩
      · exact ⟨"", by simp, same.trans String.append_empty.symm⟩

-- A companion is kept whole if no line of it begins with a package clause.
theorem keepsAll_clauseless {path : Path} {companion : String} {file : SourceFile}
    (other : ∀ l ∈ lines companion, isClause l = false) (read : SourceFile.ofText path companion = .ok file) :
    KeepsAll path companion ↔ ¬ Marked companion := by
  have none : (lines companion).dropWhile (fun l => !isClause l) = [] := by
    refine List.dropWhile_eq_nil_iff.mpr fun l member => ?_
    rw [other l member]
    rfl
  have whole : kept companion = companion ++ "\n" := by
    rw [kept, none]
    rfl
  have marked : Marked (companion ++ "\n") ↔ Marked companion := by
    rw [Marked, Marked, String.toList_append]
    cases companion.toList with
    | nil => exact iff_of_false (by rintro ⟨c, head, mark⟩; cases head; cases mark) (by rintro ⟨c, head, _⟩; cases head)
    | cons c rest => rfl
  rw [KeepsAll, whole, marked]
  refine and_iff_left ?_
  obtain ⟨file', readFeed, declared, imports⟩ := SourceFile.ofText_feed read
  exact ⟨file, file', read, readFeed, declared, imports⟩

-- Of a companion without carriage returns all is kept exactly if the lines that are dropped declare nothing.
theorem keepsAll_iff_dropped {path : Path} {companion : String} {file head : SourceFile} (bare : '\r' ∉ companion.toList)
    (clause : ∃ l ∈ lines companion, isClause l = true) (read : SourceFile.ofText path companion = .ok file)
    (read' : SourceFile.ofText path (dropped companion) = .ok head)
    (closed : CommentOpen (tokens (dropped companion)) → contains (kept companion) "*/" = false) :
    KeepsAll path companion ↔ head.declared = [] ∧ head.imports = [] := by
  have whole : ∃ file', SourceFile.ofText path (dropped companion ++ "\n" ++ kept companion) = .ok file' ∧
      file'.declared = file.declared ∧ file'.imports = file.imports := by
    obtain ⟨feeds, member, same⟩ := dropped_kept bare clause
    obtain ⟨once, readOnce, declaredOnce, importsOnce⟩ := SourceFile.ofText_feed read
    obtain ⟨twice, readTwice, declaredTwice, importsTwice⟩ := SourceFile.ofText_feed readOnce
    rw [same]
    simp only [List.mem_cons, List.not_mem_nil, or_false] at member
    rcases member with rfl | rfl | rfl
    · exact ⟨file, by rw [String.append_empty]; exact read, rfl, rfl⟩
    · exact ⟨once, readOnce, declaredOnce, importsOnce⟩
    · rw [← String.append_assoc]
      exact ⟨twice, readTwice, declaredTwice.trans declaredOnce, importsTwice.trans importsOnce⟩
  obtain ⟨file', readWhole, declared, imports⟩ := whole
  constructor
  · rintro ⟨unmarked, file'', keeps, read'', alone, same, same'⟩
    obtain rfl := Except.ok.inj (read.symm.trans read'')
    obtain ⟨joined, readJoined, functions, packages⟩ :=
      (SourceFile.ofText_append read' closed).mpr ⟨unmarked, keeps, alone, same, same'⟩
    obtain rfl := Except.ok.inj (readWhole.symm.trans readJoined)
    exact ⟨List.append_left_eq_self.mp (functions.symm.trans declared), List.append_left_eq_self.mp (packages.symm.trans imports)⟩
  · rintro ⟨noFunctions, noImports⟩
    have joined : ∃ joined, SourceFile.ofText path (dropped companion ++ "\n" ++ kept companion) = .ok joined ∧
        joined.declared = head.declared ++ file.declared ∧ joined.imports = head.imports ++ file.imports := by
      rw [noFunctions, noImports]
      exact ⟨file', readWhole, declared, imports⟩
    obtain ⟨unmarked, keeps, alone, same, same'⟩ := (SourceFile.ofText_append read' closed).mp joined
    exact ⟨unmarked, file, keeps, read, alone, same, same'⟩

-- A companion is appended whole exactly if nothing that it declares stands in the lines that are dropped, and what is
-- kept can be read by itself.
theorem appendCompanion_exact {path : Path} {resource companion : String} {file file' : SourceFile}
    (read : SourceFile.ofText path resource = .ok file) (read' : SourceFile.ofText path companion = .ok file')
    (closed : CommentOpen (tokens resource) → contains (kept companion) "*/" = false) :
    (∃ joined, SourceFile.ofText path (appendCompanion resource companion) = .ok joined ∧
        joined.declared = file.declared ++ file'.declared ∧ joined.imports = file.imports ++ file'.imports) ↔
      KeepsAll path companion := by
  rw [appendCompanion_eq, SourceFile.ofText_append read closed]
  refine and_congr_right fun _ => ⟨?_, ?_⟩
  · rintro ⟨keeps, alone, declared, imports⟩
    exact ⟨file', keeps, read', alone, declared, imports⟩
  · rintro ⟨file'', keeps, read'', alone, declared, imports⟩
    obtain rfl := Except.ok.inj (read'.symm.trans read'')
    exact ⟨keeps, alone, declared, imports⟩

def plainResource : String := "package huaweicloud\n\nfunc a() {}\n"

def plainCompanion : String := "package huaweicloud\n\nimport \"fmt\"\n\nfunc b() { fmt.Println() }\n"

theorem appendCompanion_exact_imports :
    ∃ joined, SourceFile.ofText ⟨"p.go"⟩ (appendCompanion plainResource plainCompanion) = .ok joined ∧
      joined.declared = [("a", "()", "func a() {}"), ("b", "()", "func b() { fmt.Println() }")] ∧
      joined.imports = [⟨none, "fmt"⟩] := by
  have resource : (SourceFile.ofText ⟨"p.go"⟩ plainResource).toOption.map SourceFile.outline =
      some ([("a", "()", "func a() {}")], []) := by decide +kernel
  have companion : (SourceFile.ofText ⟨"p.go"⟩ plainCompanion).toOption.map SourceFile.outline =
      some ([("b", "()", "func b() { fmt.Println() }")], [⟨none, "fmt"⟩]) := by decide +kernel
  have behind : (SourceFile.ofText ⟨"p.go"⟩ (kept plainCompanion)).toOption.map SourceFile.outline =
      some ([("b", "()", "func b() { fmt.Println() }")], [⟨none, "fmt"⟩]) := by decide +kernel
  have unmarked : ¬ Marked (kept plainCompanion) := by
    rintro ⟨c, head, mark⟩
    have feed : (kept plainCompanion).toList.head? = some '\n' := by decide +kernel
    rw [feed] at head
    cases head
    cases mark
  have closed : contains (kept plainCompanion) "*/" = false := by decide +kernel
  obtain ⟨file, read, declared, imports⟩ := SourceFile.ofText_outline resource
  obtain ⟨file', read', declared', imports'⟩ := SourceFile.ofText_outline companion
  obtain ⟨keeps, alone, declaredKept, importsKept⟩ := SourceFile.ofText_outline behind
  have whole : KeepsAll ⟨"p.go"⟩ plainCompanion :=
    ⟨unmarked, file', keeps, read', alone, declaredKept.trans declared'.symm, importsKept.trans imports'.symm⟩
  obtain ⟨joined, readJoined, functions, packages⟩ := (appendCompanion_exact read read' fun _ => closed).mpr whole
  rw [declared, declared'] at functions
  rw [imports, imports'] at packages
  exact ⟨joined, readJoined, functions, packages⟩

-- A function in the line of the package clause is dropped with it, and a line of a comment is taken for the clause.
theorem appendCompanion_one_line :
    (SourceFile.ofText ⟨"p.go"⟩ plainResource).toOption.map (·.declared) = some [("a", "()", "func a() {}")] ∧
      (SourceFile.ofText ⟨"p.go"⟩ "package p; func b() {}\n").toOption.map (·.declared) = some [("b", "()", "func b() {}")] ∧
      (SourceFile.ofText ⟨"p.go"⟩ (appendCompanion plainResource "package p; func b() {}\n")).toOption.map (·.declared) =
        some [("a", "()", "func a() {}")] ∧
      (SourceFile.ofText ⟨"p.go"⟩ "/*\npackage p holds b.\n*/\npackage p\n\nfunc b() {}\n").toOption.map (·.declared) =
        some [("b", "()", "func b() {}")] ∧
      (SourceFile.ofText ⟨"p.go"⟩ (appendCompanion plainResource
        "/*\npackage p holds b.\n*/\npackage p\n\nfunc b() {}\n")).toOption.isNone := by
  decide +kernel

end CallAtlas.Go
