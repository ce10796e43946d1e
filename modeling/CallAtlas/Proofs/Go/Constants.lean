import CallAtlas.Proofs.Go.LiteralTokens
import CallAtlas.Proofs.Text.Lower
import Mathlib.Data.List.Basic

namespace CallAtlas.Go

open CallAtlas.Text

namespace Grammar

def Value.operand? : Value → Option Operand
  | .comment => none
  | .operand o => some o

-- A specification of constants or variables as it is written: its names, its values with the comments
-- between them, and the text that positions are counted in.
structure Spec where
  constant : Bool
  names : List String
  values : List Value
  text : List Char

def specOf (isVar : Bool) (text : List Char) (b : Binding) : Spec :=
  ⟨!isVar, if isVar then b.names else b.names.filter (· != ","), b.values.getD [], text⟩

def Placed.specs (chars : List Char) (p : Placed) : List Spec :=
  match p.item with
  | .bindings isVar bindings => bindings.map (specOf isVar (p.text chars))
  | _ => []

namespace Spec

variable (s : Spec)

def operands : List Operand := s.values.filterMap Value.operand?

-- How many values stand before a position of the list.
def rank (i : Nat) : Nat := ((s.values.take i).filterMap Value.operand?).length

def listed : List String := if s.constant then s.names.intersperse "," else s.names

def written (o : Operand) : String := slice s.text o.start o.stop

-- The text of a literal without the quotes around it.
def content? (o : Operand) : Option String :=
  match o.shape with
  | .interpreted | .raw => some (String.ofList ((s.written o).toList.drop 1).dropLast)
  | .integer | .float => some (s.written o)
  | _ => none

-- Each name with the literal that is its value.
def intended : List (String × String) :=
  (s.names.zip s.operands).filterMap fun (name, o) => (s.content? o).map (name, ·)

-- What is bound: literals under the names at their positions, without any quotes at their ends.
def bound : List (String × String) :=
  (s.listed.zip s.values).filterMap fun (name, value) => (value.literalText s.text).map (name, ·)

-- The names are words, and a literal is a token of the source.
structure Declared (source : String) : Prop where
  named : s.names ≠ []
  words : ∀ n ∈ s.names, n.toList.all isNamePart = true
  literals : ∀ o ∈ s.operands, ∀ kind, o.shape.literal? = some kind →
    ∃ t ∈ tokens source, t.kind = kind ∧ s.written o = t.text

-- Every literal stands where its name does.
def Aligned : Prop :=
  ∀ i o, s.values[i]? = some (.operand o) → o.shape.literal?.isSome = true → s.listed[i]? = s.names[s.rank i]?

-- No interpreted string ends in an escaped quote.
def Unescaped : Prop :=
  ∀ o ∈ s.operands, o.shape.literal? = some .interpreted → ∀ content ∈ s.content? o, content.toList.getLast? ≠ some '"'

variable {s : Spec} {source : String}

theorem written_string {o : Operand} {q : Char} {content : List Char}
    (whole : (s.written o).toList = q :: (content ++ [q])) :
    ((s.written o).toList.drop 1).dropLast = content := by
  rw [whole, List.drop_succ_cons, List.drop_zero, List.dropLast_concat]

theorem trimmed_iff {o : Operand} {q : Char} {content : List Char} (whole : (s.written o).toList = q :: (content ++ [q]))
    (head : content.head? ≠ some q) :
    trimMatches (· == q) (s.written o) = String.ofList ((s.written o).toList.drop 1).dropLast ↔
      content.getLast? ≠ some q := by
  rw [written_string whole, trimMatches, whole, String.ofList_inj]
  exact trim_quotes head

theorem Declared.token (declared : s.Declared source) {o : Operand} (member : o ∈ s.operands) {kind : TokenKind}
    (literal : o.shape.literal? = some kind) (inside : kind ≠ .eof) :
    ∃ t : Token, t.Found source.toList ∧ t.kind = kind ∧ s.written o = t.text := by
  obtain ⟨t, member, rfl, written⟩ := declared.literals o member _ literal
  exact ⟨t, (tokens_found member).resolve_left fun ⟨eof, _⟩ => inside eof, rfl, written⟩

theorem Declared.interpreted (declared : s.Declared source) {o : Operand} (member : o ∈ s.operands)
    (literal : o.shape.literal? = some .interpreted) :
    ∃ content, (s.written o).toList = '"' :: (content ++ ['"']) ∧ content.head? ≠ some '"' := by
  obtain ⟨t, found, kind, written⟩ := declared.token member literal nofun
  rw [written]
  exact found.interpreted kind

theorem Declared.raw (declared : s.Declared source) {o : Operand} (member : o ∈ s.operands)
    (literal : o.shape.literal? = some .raw) :
    ∃ content, (s.written o).toList = '\x60' :: (content ++ ['\x60']) ∧ '\x60' ∉ content := by
  obtain ⟨t, found, kind, written⟩ := declared.token member literal nofun
  rw [written]
  exact found.raw kind

-- A literal keeps its text exactly if it is no string that ends in an escaped quote.
theorem Declared.literalText_iff (declared : s.Declared source) {o : Operand} (member : o ∈ s.operands) :
    literalText s.text o = s.content? o ↔ (o.shape.literal? = some .interpreted →
      ∀ content ∈ s.content? o, content.toList.getLast? ≠ some '"') := by
  unfold literalText content?
  cases shape : o.shape with
  | interpreted =>
    obtain ⟨content, whole, head⟩ := declared.interpreted member (by rw [shape]; rfl)
    have same := trimmed_iff whole head
    rw [written_string whole] at same ⊢
    simpa [Shape.literal?, written] using same
  | raw =>
    obtain ⟨content, whole, inside⟩ := declared.raw member (by rw [shape]; rfl)
    have head : content.head? ≠ some '\x60' := fun same => inside (List.mem_of_head? same)
    have last : content.getLast? ≠ some '\x60' := fun same => inside (List.mem_of_getLast? same)
    have same := (trimmed_iff whole head).mpr last
    simpa [Shape.literal?, written] using same
  | _ => simp [Shape.literal?, written]

theorem zip_aligned {f : String × Value → Option (String × String)} {g : String × Operand → Option (String × String)}
    (comment : ∀ n, f (n, .comment) = none) (same : ∀ n o, f (n, .operand o) = g (n, o))
    (literal : Operand → Prop) (other : ∀ n o, ¬ literal o → g (n, o) = none) {names listed : List String}
    {values : List Value}
    (aligned : ∀ i o, values[i]? = some (.operand o) → literal o →
      listed[i]? = names[((values.take i).filterMap Value.operand?).length]?) :
    (listed.zip values).filterMap f = (names.zip (values.filterMap Value.operand?)).filterMap g := by
  induction values generalizing names listed with
  | nil => simp
  | cons v rest ih =>
    cases v with
    | comment =>
      have tail := @ih names listed.tail fun i o here is => by
        simpa [Value.operand?, List.filterMap_cons] using aligned (i + 1) o here is
      rw [List.filterMap_cons_none (rfl : Value.operand? .comment = none), ← tail]
      cases listed with
      | nil => simp
      | cons n more => simp [comment]
    | operand o =>
      have tail := @ih names.tail listed.tail fun i o here is => by
        simpa [Value.operand?, List.filterMap_cons] using aligned (i + 1) o here is
      have first : literal o → listed[0]? = names[0]? := by simpa using aligned 0 o rfl
      have nothing : listed[0]? ≠ names[0]? → ∀ n, g (n, o) = none := fun differ n => other n o fun is => differ (first is)
      rw [List.filterMap_cons_some (rfl : Value.operand? (.operand o) = some o)]
      cases listed with
      | nil =>
        cases names with
        | nil => simp
        | cons m names => simpa [nothing (by simp) m] using tail
      | cons n listed =>
        cases names with
        | nil => simpa [same, nothing (by simp) n] using tail
        | cons m names =>
          by_cases equal : n = m
          · subst equal
            simp only [List.zip_cons_cons, List.filterMap_cons, same]
            rw [show (listed.zip rest).filterMap f = _ from tail]
            rfl
          · have differ := nothing (by simpa using equal)
            simpa [same, differ] using tail

theorem literalText_none {chars : List Char} {o : Operand} (other : ¬ o.shape.literal?.isSome = true) :
    literalText chars o = none := by
  unfold literalText
  cases shape : o.shape <;> rw [shape] at other <;> simp [Shape.literal?] at other ⊢

theorem Declared.bound_eq (declared : s.Declared source) (aligned : s.Aligned) (unescaped : s.Unescaped) :
    s.bound = s.intended := by
  have texts : ∀ o ∈ s.operands, literalText s.text o = s.content? o :=
    fun o member => (declared.literalText_iff member).mpr (unescaped o member)
  have positions : s.bound = (s.names.zip s.operands).filterMap fun p => (literalText s.text p.2).map (p.1, ·) :=
    zip_aligned (fun _ => rfl) (fun _ _ => rfl) (fun o => o.shape.literal?.isSome = true)
      (fun n o other => by rw [literalText_none other]; rfl) aligned
  rw [positions]
  refine List.filterMap_congr fun p member => ?_
  rw [texts p.2 (List.of_mem_zip member).2]

-- One name, or variables, and no comments between the values: nothing can be out of place.
theorem aligned_of_plain (plain : ∀ v ∈ s.values, v.operand? ≠ none) (single : s.constant = true → s.names.length = 1) :
    s.Aligned := by
  intro i o here literal
  have rank : s.rank i = i := by
    have bound := (List.getElem?_eq_some_iff.mp here).1
    have every : ∀ values : List Value, (∀ v ∈ values, v.operand? ≠ none) →
        (values.filterMap Value.operand?).length = values.length := by
      intro values some
      induction values with
      | nil => rfl
      | cons v rest ih =>
        cases value : v.operand? with
        | none => exact absurd value (some v List.mem_cons_self)
        | some o =>
          rw [List.filterMap_cons_some value, List.length_cons, List.length_cons,
            ih fun v member => some v (List.mem_cons_of_mem _ member)]
    rw [Spec.rank, every _ fun v member => plain v (List.mem_of_mem_take member), List.length_take]
    omega
  rw [rank, listed]
  split
  · rename_i constant
    obtain ⟨n, same⟩ := List.length_eq_one_iff.mp (single constant)
    rw [same]
    rfl
  · rfl

theorem mem_listed {n : String} (member : n ∈ s.listed) : n ∈ s.names ∨ n = "," := by
  have inside : ∀ {words : List String}, n ∈ words.intersperse "," → n ∈ words ∨ n = "," := by
    intro words
    induction words with
    | nil => nofun
    | cons w rest ih =>
      cases rest with
      | nil => exact fun member => .inl member
      | cons v more =>
        intro member
        rw [List.intersperse_cons_cons] at member
        rcases List.mem_cons.mp member with rfl | member
        · exact .inl List.mem_cons_self
        rcases List.mem_cons.mp member with rfl | member
        · exact .inr rfl
        · rcases ih member with member | comma
          · exact .inl (List.mem_cons_of_mem _ member)
          · exact .inr comma
  unfold listed at member
  split at member
  · exact inside member
  · exact .inl member

theorem bound_name {pair : String × String} (member : pair ∈ s.bound) : pair.1 ∈ s.names ∨ pair.1 = "," := by
  obtain ⟨⟨name, value⟩, both, made⟩ := List.mem_filterMap.mp member
  obtain ⟨_, _, rfl⟩ := Option.map_eq_some_iff.mp made
  exact mem_listed (List.of_mem_zip both).1

theorem intended_name {pair : String × String} (member : pair ∈ s.intended) : pair.1 ∈ s.names := by
  obtain ⟨⟨name, value⟩, both, made⟩ := List.mem_filterMap.mp member
  obtain ⟨_, _, rfl⟩ := Option.map_eq_some_iff.mp made
  exact (List.of_mem_zip both).1

end Spec

theorem word_ne_comma {w : String} (word : w.toList.all isNamePart = true) : (w != ",") = true := by
  rw [bne_iff_ne]
  rintro rfl
  exact absurd word (by decide)

theorem filter_intersperse {words : List String} (plain : ∀ w ∈ words, w.toList.all isNamePart = true) :
    (words.intersperse ",").filter (· != ",") = words := by
  induction words with
  | nil => rfl
  | cons w rest ih =>
    have first := word_ne_comma (plain w List.mem_cons_self)
    cases rest with
    | nil => simp [first]
    | cons v more =>
      have others := ih fun u member => plain u (List.mem_cons_of_mem _ member)
      rw [List.intersperse_cons_cons]
      simp [first, others]

section Declared

variable {source : String} {p : Placed} {b : Binding} {isVar : Bool}

theorem specOf_names {start : Nat} (read : b.FromText source start isVar) (text : List Char) :
    (specOf isVar text b).names ≠ [] ∧ (∀ n ∈ (specOf isVar text b).names, n.toList.all isNamePart = true) ∧
      (specOf isVar text b).listed = b.names := by
  obtain ⟨words, filled, plain, listed⟩ := read.listed
  have named : (specOf isVar text b).names = words := by
    cases isVar with
    | true => simpa [specOf] using listed
    | false => simpa [specOf, listed] using filter_intersperse plain
  refine ⟨named ▸ filled, named ▸ plain, ?_⟩
  rw [Spec.listed, named, listed]
  cases isVar <;> rfl

theorem specOf_bound {start : Nat} (read : b.FromText source start isVar) (text : List Char) :
    (specOf isVar text b).bound = b.literals text := by
  rw [Spec.bound, (specOf_names read text).2.2]
  rfl

theorem written_token {start : Nat} {o : Operand} {kind : TokenKind} (place : ∃ lead rest, source.toList = lead ++ rest ∧
      start = byteLength lead) (read : o.FromToken source start) (literal : o.shape.literal? = some kind) :
    ∃ t ∈ tokens source, t.kind = kind ∧ slice (dropBytes start source.toList) o.start o.stop = t.text := by
  obtain ⟨t, member, is, after, starts, stops⟩ := read kind literal
  refine ⟨t, member, is, ?_⟩
  obtain ⟨front, rest, whole, rfl⟩ := place
  obtain ⟨lead, taken, behind, whole', start, stop, text⟩ := tokens_spelled member
  rw [starts, stops, start, stop, text]
  rw [start] at after
  obtain ⟨between, rfl⟩ := prefix_of_bytes (whole.symm.trans whole') after
  rw [whole', List.append_assoc, dropBytes_append, byteLength_append, Nat.add_sub_cancel_left, Nat.add_assoc,
    Nat.add_sub_cancel_left]
  exact slice_append between taken behind

theorem specOf_declared (place : ∃ lead rest, source.toList = lead ++ rest ∧ p.start = byteLength lead)
    (read : b.FromText source p.start isVar) : (specOf isVar (p.text source.toList) b).Declared source := by
  obtain ⟨named, words, _⟩ := specOf_names read (p.text source.toList)
  refine ⟨named, words, fun o member kind literal => ?_⟩
  obtain ⟨value, member, is⟩ := List.mem_filterMap.mp member
  cases value with
  | comment => cases is
  | operand o' =>
    cases is
    cases values : b.values with
    | none =>
      rw [specOf, values] at member
      cases member
    | some list =>
      rw [specOf, values] at member
      exact written_token place (read.values list (by rw [values]; rfl) o member) literal

theorem Placed.FromText.declared (read : p.FromText source) : ∀ s ∈ p.specs source.toList, s.Declared source := by
  intro s member
  unfold Placed.specs at member
  split at member
  · rename_i isVar bindings same
    obtain ⟨b, inside, rfl⟩ := List.mem_map.mp member
    exact specOf_declared read.place (read.item isVar bindings same b inside)
  · cases member

theorem Placed.FromText.bound (read : p.FromText source) :
    (p.specs source.toList).flatMap Spec.bound = p.literals source.toList := by
  unfold Placed.specs Placed.literals
  cases same : p.item with
  | bindings isVar bindings =>
    rw [List.flatMap_map]
    exact List.flatMap_congr fun b member => specOf_bound (read.item isVar bindings same b member) _
  | _ => rfl

end Declared

-- The value of the last pair with a name.
def Latest (pairs : List (String × String)) (name value : String) : Prop :=
  ∃ before after, pairs = before ++ (name, value) :: after ∧ ∀ p ∈ after, p.1 ≠ name

theorem lookup_latest {pairs : List (String × String)} {name value : String} :
    pairs.reverse.lookup name = some value ↔ Latest pairs name value := by
  rw [List.lookup_eq_some_iff]
  constructor
  · rintro ⟨front, behind, same, others⟩
    refine ⟨behind.reverse, front.reverse, ?_, fun p member equal => ?_⟩
    · rw [← List.reverse_reverse pairs, same]
      simp
    · have differ := others p (List.mem_reverse.mp member)
      rw [equal] at differ
      simp at differ
  · rintro ⟨before, after, rfl, others⟩
    refine ⟨after.reverse, before.reverse, by simp, fun p member => ?_⟩
    rw [bne_iff_ne]
    exact fun equal => others p (List.mem_reverse.mp member) equal.symm

-- The specifications of a file, in order.
def specsOf (source : String) (items : List Placed) : List Spec := items.flatMap (·.specs source.toList)

theorem items_bound {source : String} {items : List Placed} (read : ∀ p ∈ items, p.FromText source) :
    (∀ s ∈ specsOf source items, s.Declared source) ∧
      (specsOf source items).flatMap Spec.bound = items.flatMap (·.literals source.toList) := by
  constructor
  · intro s member
    obtain ⟨p, inside, member⟩ := List.mem_flatMap.mp member
    exact (read p inside).declared s member
  · rw [specsOf, List.flatMap_assoc]
    exact List.flatMap_congr fun p member => (read p member).bound

end Grammar

open Grammar

-- A literal is bound as it is written if it stands where its name does and is no string that ends in an
-- escaped quote; the value that a name has is the last one bound to it.
theorem package_literals_exact {path : Path} {source : String} {file : SourceFile}
    (read : SourceFile.ofText path source = .ok file) :
    ∃ items, parse? source = some items ∧
      (∀ name value, file.literal? name = some value ↔
        Latest ((specsOf source items).flatMap Spec.bound) name value) ∧
      (∀ p ∈ file.literals, p.1 = "," ∨ ∃ s ∈ specsOf source items, p.1 ∈ s.names) ∧
      (∀ s ∈ specsOf source items, s.Declared source ∧
        (∀ i o, s.values[i]? = some (.operand o) → o.shape.literal?.isSome = true →
          ((s.listed[i]?, literalText s.text o) = (s.names[s.rank i]?, s.content? o) ↔
            s.listed[i]? = s.names[s.rank i]? ∧ (o.shape.literal? = some .interpreted →
              ∀ content ∈ s.content? o, content.toList.getLast? ≠ some '"'))) ∧
        (s.Aligned → s.Unescaped → s.bound = s.intended) ∧
        ((∀ v ∈ s.values, v.operand? ≠ none) → (s.constant = true → s.names.length = 1) → s.Aligned)) ∧
      ((∀ s ∈ specsOf source items, s.Aligned ∧ s.Unescaped) →
        (∀ name value, file.literal? name = some value ↔
          Latest ((specsOf source items).flatMap Spec.intended) name value) ∧
        ∀ p ∈ file.literals, ∃ s ∈ specsOf source items, p.1 ∈ s.names) := by
  unfold SourceFile.ofText at read
  split at read
  · cases read
  rename_i items parsed
  cases read
  obtain ⟨declared, bound⟩ := items_bound (items_read (tokens_standing source) parsed)
  have looked : ∀ name value, (items.flatMap (·.literals source.toList)).reverse.lookup name = some value ↔
      Latest ((specsOf source items).flatMap Spec.bound) name value := by
    intro name value
    rw [lookup_latest, bound]
  refine ⟨items, parsed, looked, fun p member => ?_, fun s member => ⟨declared s member, ?_, ?_, ?_⟩, fun straight => ?_⟩
  · rw [List.mem_reverse, ← bound] at member
    obtain ⟨s, inside, member⟩ := List.mem_flatMap.mp member
    rcases Spec.bound_name member with named | comma
    · exact .inr ⟨s, inside, named⟩
    · exact .inl comma
  · intro i o here _
    have operand : o ∈ s.operands := List.mem_filterMap.mpr ⟨_, List.mem_of_getElem? here, rfl⟩
    rw [Prod.mk.injEq, (declared s member).literalText_iff operand]
  · exact (declared s member).bound_eq
  · exact Spec.aligned_of_plain
  · have same : (specsOf source items).flatMap Spec.bound = (specsOf source items).flatMap Spec.intended :=
      List.flatMap_congr fun s member => (declared s member).bound_eq (straight s member).1 (straight s member).2
    refine ⟨fun name value => by rw [← same]; exact looked name value, fun p member => ?_⟩
    rw [List.mem_reverse, ← bound, same] at member
    obtain ⟨s, inside, member⟩ := List.mem_flatMap.mp member
    exact ⟨s, inside, Spec.intended_name member⟩

def plainDeclarations : String := "package p\n\nconst a = \"x\"\n\nvar b, c = 1, \"y\"\n"

theorem package_literals_exact_plain :
    ∃ file items, SourceFile.ofText ⟨"p.go"⟩ plainDeclarations = .ok file ∧ parse? plainDeclarations = some items ∧
      file.literals = [("c", "y"), ("b", "1"), ("a", "x")] ∧
      ∀ name value, file.literal? name = some value ↔
        Latest ((specsOf plainDeclarations items).flatMap Spec.intended) name value := by
  have checked : ((parse? plainDeclarations).map fun items => (specsOf plainDeclarations items).all fun s =>
      s.values.all (·.operand?.isSome) && (!s.constant || s.names.length == 1) &&
        s.operands.all fun o => (s.content? o).all (·.toList.getLast? != some '"')) = some true := by
    decide +kernel
  have literals : (SourceFile.ofText ⟨"p.go"⟩ plainDeclarations).toOption.map (·.literals) =
      some [("c", "y"), ("b", "1"), ("a", "x")] := by
    decide +kernel
  obtain ⟨file, read, bound⟩ := Option.map_eq_some_iff.mp literals
  cases parsed : SourceFile.ofText ⟨"p.go"⟩ plainDeclarations with
  | error e => rw [parsed] at read; cases read
  | ok found =>
    rw [parsed] at read
    cases read
    obtain ⟨items, given, _, _, each, all⟩ := package_literals_exact parsed
    rw [given, Option.map_some, Option.some.injEq, List.all_eq_true] at checked
    refine ⟨file, items, rfl, given, bound, (all fun s member => ?_).1⟩
    have plain := checked s member
    simp only [Bool.and_eq_true, List.all_eq_true, Bool.or_eq_true, Bool.not_eq_true', beq_iff_eq] at plain
    obtain ⟨⟨values, single⟩, contents⟩ := plain
    refine ⟨(each s member).2.2.2 (fun v inside none => ?_) (fun constant => ?_), fun o inside _ content written => ?_⟩
    · simpa [none] using values v inside
    · exact single.resolve_left (by simp [constant])
    · have last := contents o inside
      rw [Option.all_eq_true] at last
      simpa using last content written

-- The second name of a constant is passed over for the comma before it, and a quote that is part of a string
-- is taken from its end.
theorem comma_bound :
    (SourceFile.ofText ⟨"p.go"⟩ "package p\n\nconst a, b = \"x\", \"y\"\n\nconst q = \"\\\"x\\\"\"\n").toOption.map
      (·.literals) = some [("q", "\\\"x\\"), (",", "y"), ("a", "x")] := by
  decide +kernel

end CallAtlas.Go
