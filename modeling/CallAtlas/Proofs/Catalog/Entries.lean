import CallAtlas.Catalog.Registry
import CallAtlas.Proofs.Data.Readable
import CallAtlas.Proofs.Text.Lower
import CallAtlas.Proofs.Text.Readings
import Mathlib.Data.List.Nodup
import Mathlib.Data.List.Perm.Basic

namespace CallAtlas.Catalog

open CallAtlas.Text CallAtlas.Text.Pattern

inductive Datum where
  | string (s : String)
  | bool (b : Bool)
  deriving DecidableEq

structure EntryField where
  name : String
  value : Datum
  deriving DecidableEq

namespace Datum

def content : Datum → String
  | string s => s
  | bool b => toString b

def text : Datum → List Char
  | string s => '"' :: (s.toList ++ ['"'])
  | bool b => (toString b).toList

-- A string that is written without escapes.
def Plain : Datum → Prop
  | string s => '"' ∉ s.toList ∧ '\\' ∉ s.toList
  | bool _ => True

instance : DecidablePred Plain
  | string s => inferInstanceAs (Decidable ('"' ∉ s.toList ∧ '\\' ∉ s.toList))
  | bool _ => .isTrue trivial

end Datum

structure EntryField.Plain (f : EntryField) : Prop where
  filled : f.name.toList ≠ []
  worded : f.name.toList.all isWord = true
  value : f.value.Plain

instance : DecidablePred EntryField.Plain := fun f =>
  decidable_of_iff (f.name.toList ≠ [] ∧ f.name.toList.all isWord = true ∧ f.value.Plain)
    ⟨fun plain => ⟨plain.1, plain.2.1, plain.2.2⟩, fun plain => ⟨plain.filled, plain.worded, plain.value⟩⟩

-- A field with blanks between its parts and around it.
inductive EntryField.Written (f : EntryField) : List Char → Prop where
  | spaced (before named colon after : List Char) :
      before.all isBlank = true → named.all isBlank = true → colon.all isBlank = true → after.all isBlank = true →
      Written f (before ++ (f.name.toList ++ (named ++ ':' :: (colon ++ (f.value.text ++ after)))))

-- Commas stand between the fields, and one may stand behind the last.
inductive Listed : List EntryField → List Char → Prop where
  | nil {gap : List Char} : gap.all isBlank = true → Listed [] gap
  | last {f : EntryField} {text : List Char} : f.Written text → Listed [f] text
  | cons {f : EntryField} {text rest : List Char} {fields : List EntryField} :
      f.Written text → Listed fields rest → Listed (f :: fields) (text ++ ',' :: rest)

def nameField (s : Service) : EntryField := ⟨"Name", .string s.name⟩

def ownFields (s : Service) : List EntryField :=
  [⟨"Version", .string s.version⟩, ⟨"ResourceBase", .string s.resourceBase⟩, ⟨"Product", .string s.product⟩,
    ⟨"WithOutProjectID", .bool s.withoutProjectId⟩]

def isOwn (f : EntryField) : Bool := ["Name", "Version", "ResourceBase", "Product", "WithOutProjectID"].contains f.name

-- The fields of a service between any others. Its name may be left out if it is the key.
structure Describes (key : String) (s : Service) (fields : List EntryField) : Prop where
  plain : ∀ f ∈ fields, f.Plain
  own : (fields.filter isOwn).Perm (nameField s :: ownFields s) ∨
    s.name = key ∧ (fields.filter isOwn).Perm (ownFields s)

def Renders (key : String) (s : Service) (body : String) : Prop :=
  ∃ fields lead inner trail, Describes key s fields ∧ Listed fields inner ∧ lead.all isBlank = true ∧
    trail.all isBlank = true ∧ body.toList = lead ++ '\x7b' :: (inner ++ '\x7d' :: trail)

-- A word up to a colon and a value behind it, at the beginning of a text.
structure ReadsField (text : List Char) (found : List Char × List Char) (rest : List Char) : Prop where
  written : ∃ named colon, text = found.1 ++ (named ++ ':' :: (colon ++ (found.2 ++ rest))) ∧
    named.all isBlank = true ∧ colon.all isBlank = true
  filled : found.1 ≠ []
  worded : found.1.all isWord = true
  value : fieldValueEnd (found.2 ++ rest) = some rest

def groupsOf (found : List Char × List Char) : List String := [String.ofList found.1, String.ofList found.2]

def EntryField.parts (f : EntryField) : List Char × List Char := (f.name.toList, f.value.text)

section Values

variable {text rest : List Char}

theorem quotedEnd_within (ended : quotedEnd text = some rest) : rest <:+ text := by
  fun_induction quotedEnd text with
  | case1 => cases ended
  | case2 left => cases ended; exact List.suffix_cons _ _
  | case3 => cases ended
  | case4 c left _ ih => exact ((ih ended).trans (List.suffix_cons _ _)).trans (List.suffix_cons _ _)
  | case5 => cases ended
  | case6 c left _ _ _ ih => exact (ih ended).trans (List.suffix_cons _ _)

theorem fieldValueEnd_within (ended : fieldValueEnd text = some rest) :
    rest <:+ text ∧ text.head?.any isBlank = false := by
  unfold fieldValueEnd at ended
  split at ended
  · exact ⟨(quotedEnd_within ended).trans (List.suffix_cons _ _), rfl⟩
  · rcases Option.or_eq_some_iff.mp ended with isTrue | ⟨_, isFalse⟩
    · rw [after?_exact.mp isTrue]
      exact ⟨List.suffix_append _ _, rfl⟩
    · rw [after?_exact.mp isFalse]
      exact ⟨List.suffix_append _ _, rfl⟩

theorem quotedEnd_plain {s : List Char} (unquoted : '"' ∉ s) (unescaped : '\\' ∉ s) (rest : List Char) :
    quotedEnd (s ++ '"' :: rest) = some rest := by
  induction s with
  | nil => rfl
  | cons c s ih =>
    obtain ⟨quote, later⟩ := not_or.mp (mt List.mem_cons.mpr unquoted)
    obtain ⟨slash, later'⟩ := not_or.mp (mt List.mem_cons.mpr unescaped)
    rw [List.cons_append, quotedEnd]
    · exact ih later later'
    · exact fun same => quote same.symm
    · exact fun _ _ same => absurd same.symm slash
    · exact fun same => absurd same.symm slash

theorem fieldValueEnd_text {d : Datum} (plain : d.Plain) (rest : List Char) :
    fieldValueEnd (d.text ++ rest) = some rest := by
  cases d with
  | string s =>
    rw [Datum.text, List.cons_append, List.append_assoc]
    exact quotedEnd_plain plain.1 plain.2 rest
  | bool b => cases b <;> rfl

end Values

section Reading

variable {text rest : List Char} {found : List Char × List Char} {f : EntryField} {fields : List EntryField}
  {as : List (List Char × List Char)}

theorem field_reading : Reading ReadsField := by
  constructor
  · rintro text ⟨name, value⟩ ⟨name', value'⟩ rest rest' one two
    obtain ⟨named, colon, whole, blank, blankValue⟩ := one.written
    obtain ⟨named', colon', whole', blank', blankValue'⟩ := two.written
    have same := whole.symm.trans whole'
    have word := congrArg (List.takeWhile isWord) same
    rw [takeWhile_inside one.worded (gap_unworded blank (by decide)),
      takeWhile_inside two.worded (gap_unworded blank' (by decide))] at word
    subst word
    have gap := congrArg (List.dropWhile isBlank) (List.append_cancel_left same)
    rw [dropWhile_inside blank rfl, dropWhile_inside blank' rfl] at gap
    have values := congrArg (List.dropWhile isBlank) (List.cons.inj gap).2
    rw [dropWhile_inside blankValue (fieldValueEnd_within one.value).2,
      dropWhile_inside blankValue' (fieldValueEnd_within two.value).2] at values
    have ended := two.value
    rw [← values, one.value] at ended
    cases ended
    exact ⟨congrArg (Prod.mk name) (List.append_cancel_right values), rfl⟩
  · rintro text ⟨name, value⟩ rest read
    obtain ⟨named, colon, rfl, _⟩ := read.written
    obtain ⟨c, more, rfl⟩ := List.exists_cons_of_ne_nil read.filled
    exact ⟨c, more ++ (named ++ ':' :: (colon ++ value)), by simp⟩

theorem field_readsAs : entryField.ReadsAs groupsOf ReadsField := by
  refine readsAs_of field_reading ?_ ?_
  · rintro ⟨before, text, openAt, groups⟩ t ran fresh
    obtain ⟨_, opens, ran⟩ := run_cons ran
    cases opens
    obtain ⟨_, passes, ran⟩ := run_cons ran
    cases passes with
    | @one _ c text _ first here =>
    obtain ⟨more, _, _, here', fits, ran⟩ := run_cons_many ran
    obtain ⟨_, closes, ran⟩ := run_cons ran
    cases closes
    obtain ⟨named, _, _, here₁, blank, ran⟩ := run_cons_many ran
    obtain ⟨_, _, here₂, ran⟩ := run_cons_text ran
    obtain ⟨colon, _, _, here₃, blankValue, ran⟩ := run_cons_many ran
    obtain ⟨_, opens, ran⟩ := run_cons ran
    cases opens
    obtain ⟨_, passes, ran⟩ := run_cons ran
    cases passes with
    | @by_ _ left _ here₄ =>
    obtain ⟨_, closes, done⟩ := run_cons ran
    cases closes
    cases done
    obtain ⟨value, split⟩ := (fieldValueEnd_within here₄).1
    dsimp only at here here' here₁ here₂ here₃ here₄ split fresh ⊢
    subst here here' here₁ here₂ here₃ split fresh
    refine ⟨(c :: more, value), ⟨⟨named, colon, rfl, blank, blankValue⟩, by simp, ?_, here₄⟩, ?_⟩
    · rw [List.all_cons, first, fits]
      rfl
    · rw [take_front, ← List.cons_append, take_front]
      rfl
  · rintro s ⟨name, value⟩ rest read
    obtain ⟨named, colon, here, blank, blankValue⟩ := read.written
    obtain ⟨c, more, rfl⟩ := List.exists_cons_of_ne_nil read.filled
    obtain ⟨first, fits⟩ := Bool.and_eq_true_iff.mp (List.all_cons ▸ read.worded)
    exact run_isSome.mpr ⟨c, _, here, first, more, _, rfl, fits, named, _, rfl, blank, _, rfl, colon, _, rfl,
      blankValue, rest, read.value, trivial⟩

theorem pass_over {gap : List Char} (unworded : ∀ c ∈ gap, isWord c = false) (all : ReadsAll ReadsField text as) :
    ReadsAll ReadsField (gap ++ text) as := by
  induction gap with
  | nil => exact all
  | cons c gap ih =>
    refine .pass ?_ (ih fun d member => unworded d (List.mem_cons_of_mem _ member))
    rintro ⟨⟨name, value⟩, rest, read⟩
    obtain ⟨named, colon, whole, _⟩ := read.written
    obtain ⟨d, more, rfl⟩ := List.exists_cons_of_ne_nil read.filled
    obtain ⟨rfl, _⟩ := List.cons.inj whole
    have word := (Bool.and_eq_true_iff.mp (List.all_cons ▸ read.worded)).1
    rw [unworded c List.mem_cons_self] at word
    cases word

theorem pass_blanks {gap : List Char} (blank : gap.all isBlank = true) (all : ReadsAll ReadsField text as) :
    ReadsAll ReadsField (gap ++ text) as :=
  pass_over (fun c member => blank_unworded (List.all_eq_true.mp blank c member)) all

theorem pass_mark {c : Char} (unworded : isWord c = false) (all : ReadsAll ReadsField text as) :
    ReadsAll ReadsField (c :: text) as := by
  have single : ∀ d ∈ [c], isWord d = false := fun d member => by rwa [List.mem_singleton.mp member]
  exact pass_over single all

theorem EntryField.Written.reads (written : f.Written text) (plain : f.Plain) (all : ReadsAll ReadsField rest as) :
    ReadsAll ReadsField (text ++ rest) (f.parts :: as) := by
  obtain ⟨before, named, colon, after, blank, blank₁, blank₂, blank₃⟩ := written
  have read : ReadsField (f.name.toList ++ (named ++ ':' :: (colon ++ (f.value.text ++ (after ++ rest))))) f.parts
      (after ++ rest) :=
    ⟨⟨named, colon, rfl, blank₁, blank₂⟩, plain.filled, plain.worded, fieldValueEnd_text plain.value _⟩
  have whole := pass_blanks blank (.read read (pass_blanks blank₃ all))
  simpa only [List.append_assoc, List.cons_append] using whole

theorem Listed.reads (listed : Listed fields text) (plain : ∀ f ∈ fields, f.Plain)
    (behind : ReadsAll ReadsField rest []) : ReadsAll ReadsField (text ++ rest) (fields.map EntryField.parts) := by
  induction listed with
  | nil blank => exact pass_blanks blank behind
  | last written => exact written.reads (plain _ List.mem_cons_self) behind
  | cons written _ ih =>
    have later := ih fun f member => plain f (List.mem_cons_of_mem _ member)
    rw [List.append_assoc, List.cons_append]
    exact written.reads (plain _ List.mem_cons_self) (pass_mark (by decide) later)

end Reading

section Services

variable {key body : String} {s : Service} {fields : List EntryField} {f g : EntryField}

def EntryField.set (s : Service) (f : EntryField) : Service := setField s ⟨0, 0, groupsOf f.parts⟩

theorem trim_text {d : Datum} (plain : d.Plain) : trimMatches (· == '"') (String.ofList d.text) = d.content := by
  cases d with
  | string s =>
    have first : s.toList.head? ≠ some '"' := fun same => plain.1 (List.mem_of_head? same)
    have last : s.toList.getLast? ≠ some '"' := fun same => plain.1 (List.mem_of_getLast? same)
    rw [trimMatches, String.toList_ofList, Datum.text, (trim_quotes first).mpr last, String.ofList_toList]
    rfl
  | bool b => cases b <;> rfl

-- Other fields change nothing.
theorem set_own (s : Service) (f : EntryField) : f.set s = if isOwn f then f.set s else s := by
  split
  · rfl
  · rename_i other
    simp only [isOwn, List.contains_eq_mem, List.mem_cons, List.not_mem_nil, or_false, decide_eq_true_eq,
      not_or] at other
    simp [EntryField.set, setField, Match.group, groupsOf, EntryField.parts, other]

theorem set_comm (apart : f.name ≠ g.name) (t : Service) : g.set (f.set t) = f.set (g.set t) := by
  simp only [EntryField.set, setField, Match.group, groupsOf, EntryField.parts, List.getD_cons_succ,
    List.getD_cons_zero, String.ofList_toList]
  split <;> split <;> simp_all

-- Each field of a service has a name of its own, so their order does not matter.
theorem ownFields_comm (s : Service) (f : EntryField) (mine : f ∈ nameField s :: ownFields s) (g : EntryField)
    (mine' : g ∈ nameField s :: ownFields s) (t : Service) : g.set (f.set t) = f.set (g.set t) := by
  have names : ((nameField s :: ownFields s).map EntryField.name).Nodup := by
    change ["Name", "Version", "ResourceBase", "Product", "WithOutProjectID"].Nodup
    decide
  by_cases same : f.name = g.name
  · rw [List.inj_on_of_nodup_map names mine mine' same]
  · exact set_comm same t

theorem foldl_own (fields : List EntryField) (t : Service) :
    fields.foldl EntryField.set t = (fields.filter isOwn).foldl EntryField.set t := by
  rw [List.foldl_filter]
  exact congrArg (fun set => fields.foldl set t) (funext fun s => funext fun f => set_own s f)

theorem setName_exact (plain : (nameField s).Plain) (t : Service) :
    (nameField s).set t = { t with name := s.name } := by
  have name : (Datum.string s.name).Plain := plain.value
  simp [EntryField.set, setField, Match.group, groupsOf, EntryField.parts, nameField, trim_text name, Datum.content]

theorem setFields_exact (plain : ∀ f ∈ ownFields s, f.Plain) (t : Service) :
    (ownFields s).foldl EntryField.set t = { s with name := t.name } := by
  simp only [ownFields, List.forall_mem_cons] at plain
  obtain ⟨version, base, product, flag, _⟩ := plain
  have read : (toString s.withoutProjectId == "true") = s.withoutProjectId := by
    cases s.withoutProjectId <;> rfl
  simp [ownFields, EntryField.set, setField, Match.group, groupsOf, EntryField.parts, trim_text version.value,
    trim_text base.value, trim_text product.value, trim_text flag.value, Datum.content, read]

theorem Describes.service (described : Describes key s fields) :
    fields.foldl EntryField.set (Service.named key) = s := by
  have plain : ∀ f ∈ fields.filter isOwn, f.Plain := fun f member => described.plain f (List.mem_of_mem_filter member)
  have order : ∀ {own : List EntryField}, (fields.filter isOwn).Perm own → own ⊆ nameField s :: ownFields s →
      fields.foldl EntryField.set (Service.named key) = own.foldl EntryField.set (Service.named key) := by
    intro own perm inside
    rw [foldl_own]
    refine perm.foldl_eq' (fun f member g member' t => ?_) _
    exact ownFields_comm s f (inside (perm.subset member)) g (inside (perm.subset member')) t
  rcases described.own with whole | ⟨rfl, rest⟩
  · rw [order whole (List.Subset.refl _), List.foldl_cons,
      setName_exact (plain _ (whole.mem_iff.mpr List.mem_cons_self)),
      setFields_exact fun f member => plain f (whole.mem_iff.mpr (List.mem_cons_of_mem _ member))]
  · rw [order rest (List.subset_cons_self _ _), setFields_exact fun f member => plain f (rest.mem_iff.mpr member)]
    rfl

theorem Renders.begins (rendered : Renders key s body) : startsWith (trimStart body) "\x7b" = true := by
  obtain ⟨_, lead, inner, trail, _, _, blank, _, whole⟩ := rendered
  rw [startsWith, trimStart, String.toList_ofList, whole, trimStartBy, dropWhile_inside blank rfl,
    String.toList_ofList]
  rfl

theorem Renders.listed (rendered : Renders key s body) : ∃ fields, Describes key s fields ∧
    (entryField.findAll body).map (·.groups) = fields.map fun f => groupsOf f.parts := by
  obtain ⟨fields, lead, inner, trail, described, listed, blank, blank', whole⟩ := rendered
  obtain ⟨as, all, found⟩ := field_readsAs.findAll_reads field_reading body
  have behind : ReadsAll ReadsField ('\x7d' :: trail) [] :=
    pass_mark (by decide) (List.append_nil trail ▸ pass_blanks blank' .nil)
  have given := pass_blanks blank (pass_mark (c := '\x7b') (by decide) (listed.reads described.plain behind))
  rw [whole] at all
  obtain rfl := all.unique field_reading given
  exact ⟨fields, described, by rw [found, List.map_map]; rfl⟩

theorem Renders.read (rendered : Renders key s body) : readEntry? key body = some s := by
  obtain ⟨fields, described, found⟩ := rendered.listed
  have matched : (entryField.findAll body).foldl setField (Service.named key) =
      ((entryField.findAll body).map (·.groups)).foldl (fun t groups => setField t ⟨0, 0, groups⟩)
        (Service.named key) := by
    rw [List.foldl_map]
    rfl
  rw [ readEntry?, if_pos rendered.begins, matched, found, List.foldl_map]
  exact congrArg some described.service

theorem Registry.addEntries_rendered {pairs : List (String × Service)} {entries : List (String × String)}
    (rendered : List.Forall₂ (fun p e => e.1 = p.1 ∧ Renders p.1 p.2 e.2) pairs entries) (r : Registry) :
    r.addEntries entries = pure ⟨pairs.foldl (fun m p => m.insert p.1 p.2) r.services⟩ := by
  induction rendered generalizing r with
  | nil => rfl
  | @cons p e pairs entries here _ ih =>
    obtain ⟨key, body⟩ := e
    obtain ⟨rfl, rendered⟩ := here
    rw [addEntries, rendered.read]
    exact ih _

theorem Registry.read_from_literals {pairs : List (String × Service)} {entries : List (String × String)}
    (rendered : List.Forall₂ (fun p e => e.1 = p.1 ∧ Renders p.1 p.2 e.2) pairs entries) :
    Registry.addEntries {} entries = pure (Registry.ofList pairs) ∧
      ∀ key s, (Registry.ofList pairs).get? key = some s ↔ LastEntry pairs key s :=
  ⟨addEntries_rendered rendered {}, fun _ _ => SortedMap.get?_ofList⟩

-- A key that is repeated, a name that is left out, another field, and a value that looks like a field.
theorem Registry.read_from_literals_dns :
    Registry.addEntries {}
        [("dns", "\x7bName: \"dns\", Version: \"v1\", ResourceBase: \"\", Product: \"\", WithOutProjectID: false\x7d"),
          ("dns", "\x7b\n\tProduct: \"Name: true\",\n\tAdmin: true,\n\tWithOutProjectID:true, " ++
            "ResourceBase: \"\",\n\tVersion : \"v2\",\n\x7d")] =
      pure (Registry.ofList [("dns", { name := "dns", version := "v1" }),
        ("dns", { name := "dns", version := "v2", withoutProjectId := true, product := "Name: true" })]) := by
  have line : [' '].all isBlank = true := by decide
  have tab : ['\n', '\t'].all isBlank = true := by decide
  have feed : ['\n'].all isBlank = true := by decide
  refine (Registry.read_from_literals (.cons ⟨rfl, ?_⟩ (.cons ⟨rfl, ?_⟩ .nil))).1
  · refine ⟨[⟨"Name", .string "dns"⟩, ⟨"Version", .string "v1"⟩, ⟨"ResourceBase", .string ""⟩, ⟨"Product", .string ""⟩,
      ⟨"WithOutProjectID", .bool false⟩], [], _, [], ⟨by decide, .inl (by decide)⟩,
      .cons (.spaced [] [] [' '] [] rfl rfl line rfl) (.cons (.spaced [' '] [] [' '] [] line rfl line rfl)
        (.cons (.spaced [' '] [] [' '] [] line rfl line rfl) (.cons (.spaced [' '] [] [' '] [] line rfl line rfl)
          (.last (.spaced [' '] [] [' '] [] line rfl line rfl))))), rfl, rfl, by decide⟩
  · refine ⟨[⟨"Product", .string "Name: true"⟩, ⟨"Admin", .bool true⟩, ⟨"WithOutProjectID", .bool true⟩,
      ⟨"ResourceBase", .string ""⟩, ⟨"Version", .string "v2"⟩], [], _, [], ⟨by decide, .inr ⟨rfl, by decide⟩⟩,
      .cons (.spaced ['\n', '\t'] [] [' '] [] tab rfl line rfl)
        (.cons (.spaced ['\n', '\t'] [] [' '] [] tab rfl line rfl)
        (.cons (.spaced ['\n', '\t'] [] [] [] tab rfl rfl rfl) (.cons (.spaced [' '] [] [' '] [] line rfl line rfl)
          (.cons (.spaced ['\n', '\t'] [' '] [' '] [] tab line line rfl) (.nil feed))))),
      rfl, rfl, by decide⟩

end Services

end CallAtlas.Catalog
