import CallAtlas.Proofs.Text.Readings
import CallAtlas.Sdk.Rest

namespace CallAtlas.Sdk.Rest

open CallAtlas.Text CallAtlas.Text.Pattern

-- The segment that an argument stands for.
inductive Denotes (literal? : String → Option String) (arg : String) : String → Prop where
  | quoted : '"' ∈ arg.toList → Denotes literal? arg (String.ofList (arg.toList.filter (· != '"')))
  | literal {value : String} : '"' ∉ arg.toList → literal? arg = some value → Denotes literal? arg value
  | project : '"' ∉ arg.toList → literal? arg = none → ".ProjectID".toList <:+ arg.toList →
      Denotes literal? arg "\x7bproject_id\x7d"
  | other : '"' ∉ arg.toList → literal? arg = none → ¬ ".ProjectID".toList <:+ arg.toList →
      Denotes literal? arg ("\x7b" ++ arg ++ "\x7d")

-- One segment for each piece that is more than blanks, in order.
inductive Segmented (literal? : String → Option String) : List String → List String → Prop where
  | nil : Segmented literal? [] []
  | blank {piece : String} {pieces segments : List String} :
      trim piece = "" → Segmented literal? pieces segments → Segmented literal? (piece :: pieces) segments
  | cons {piece segment : String} {pieces segments : List String} :
      trim piece ≠ "" → Denotes literal? (trim piece) segment → Segmented literal? pieces segments →
      Segmented literal? (piece :: pieces) (segment :: segments)

section Segments

variable {literal? : String → Option String}

theorem segment_denotes (literal? : String → Option String) (arg : String) :
    Denotes literal? arg (segment literal? arg) := by
  unfold segment
  split
  · rename_i quoted
    exact .quoted (by simpa [containsChar] using quoted)
  · rename_i unquoted
    have bare : '"' ∉ arg.toList := by simpa [containsChar] using unquoted
    split
    · rename_i value found
      exact .literal bare found
    · rename_i none
      split
      · rename_i ends
        exact .project bare none (List.isSuffixOf_iff_suffix.mp ends)
      · rename_i ends
        exact .other bare none (mt List.isSuffixOf_iff_suffix.mpr ends)

theorem pieces_segmented (literal? : String → Option String) (pieces : List String) :
    Segmented literal? pieces (((pieces.map trim).filter (· != "")).map (segment literal?)) := by
  induction pieces with
  | nil => exact .nil
  | cons piece pieces ih =>
    by_cases empty : trim piece = ""
    · simpa [empty] using Segmented.blank empty ih
    · simpa [empty] using Segmented.cons empty (segment_denotes literal? (trim piece)) ih

end Segments

def serviceCall : String := ".ServiceURL("

def clusterCall : String := "CCEServiceURL("

def servicePattern : Pattern := Pattern.between serviceCall notNewline ")"

def clusterPattern : Pattern :=
  word "return" :: .one isBlank :: .many notNewline :: Pattern.between clusterCall notNewline ")"

theorem builders_eq : builders = [⟨servicePattern, 0⟩, ⟨clusterPattern, 2⟩] := rfl

def Mentions (text : List Char) (call : String) : Prop := call.toList <:+: text

instance {text : List Char} {call : String} : Decidable (Mentions text call) :=
  decidable_of_iff _ (occursIn_iff call.toList text)

-- The arguments of a call stand on one line, and nothing closes behind them on it.
structure Closed (args after : String) : Prop where
  inLine : '\n' ∉ args.toList
  last : ')' ∉ after.toList.takeWhile notNewline

def written (before call args after : String) : String := before ++ call ++ args ++ ")" ++ after

-- The only call of the second builder, with `return` and a space in front of it on its line.
structure Returned (before args after : String) : Prop where
  other : ¬ Mentions (written before clusterCall args after).toList serviceCall
  only : ∀ lead behind, (written before clusterCall args after).toList = lead ++ (clusterCall.toList ++ behind) →
    lead = before.toList
  line : ∃ front line, before.toList = front ++ ("return ".toList ++ line) ∧ '\n' ∉ line

section Calls

variable {w before lead after behind : List Char} {c : Char} {source args rest : String}

theorem written_toList {before : String} : (written before call args rest).toList =
    before.toList ++ (call.toList ++ (args.toList ++ (")".toList ++ rest.toList))) := by
  simp only [written, String.toList_append, List.append_assoc]

-- Words whose first character does not come again do not overlap.
theorem word_within (alone : c ∉ w) (whole : before ++ (c :: w ++ after) = lead ++ (c :: w ++ behind))
    (shorter : lead.length < before.length) : c :: w <:+: before := by
  obtain ⟨middle, rfl, _⟩ | ⟨middle, rfl, rest⟩ := List.append_eq_append_iff.mp whole
  · rw [List.length_append] at shorter
    omega
  obtain ⟨more, rfl, _⟩ | ⟨more, split, again⟩ := List.append_eq_append_iff.mp rest
  · exact ⟨lead, more, by simp⟩
  · cases more with
    | nil => exact ⟨lead, [], by simp [split]⟩
    | cons d more =>
      obtain ⟨rfl, _⟩ := List.cons.inj again
      cases middle with
      | nil => simp at shorter
      | cons e middle =>
        obtain ⟨_, rfl⟩ := List.cons.inj split
        simp at alone

-- More of the line cannot be taken, since nothing closes behind the arguments.
theorem Closed.longest (closed : Closed args rest) {other more : List Char}
    (whole : args.toList ++ ')' :: rest.toList = other ++ ')' :: more) (line : '\n' ∉ other) :
    other.length ≤ args.toList.length := by
  obtain ⟨middle, rfl, split⟩ | ⟨middle, front, _⟩ := List.append_eq_append_iff.mp whole
  · cases middle with
    | nil => simp
    | cons d middle =>
      obtain ⟨rfl, after⟩ := List.cons.inj split
      have inLine : middle.all notNewline = true := by
        refine inLine_iff.mpr fun member => line ?_
        simp [member]
      refine absurd ?_ closed.last
      change rest.toList = middle ++ ')' :: more at after
      rw [after, List.takeWhile_append_of_pos (List.all_eq_true.mp inLine), List.takeWhile_cons_of_pos (by decide)]
      exact List.mem_append_right _ List.mem_cons_self
  · simp [front]

theorem Closed.between (call : String) (closed : Closed args rest) : Between call notNewline ")"
    (call.toList ++ (args.toList ++ (")".toList ++ rest.toList))) args.toList rest.toList where
  written := rfl
  fits := inLine_iff.mpr closed.inLine
  longest := fun _ _ whole fits => closed.longest (List.append_cancel_left whole) (inLine_iff.mp fits)

end Calls

section Builders

variable {literal? : String → Option String} {source before args after : String} {m : Match}

theorem service_first (bare : ¬ Mentions before.toList serviceCall) (closed : Closed args after) :
    FirstRead (Between serviceCall notNewline ")") (written before serviceCall args after) args.toList := by
  have here := closed.between serviceCall
  refine ⟨before.toList, _, _, written_toList, ⟨⟨_, written_toList, _, _, here⟩, ?_⟩, here⟩
  rintro lead ⟨rest, whole, inside, behind, between⟩
  refine Nat.le_of_not_lt fun shorter => bare ?_
  rw [written_toList, between.written] at whole
  exact word_within (by decide) whole shorter

theorem service_arguments (bare : ¬ Mentions before.toList serviceCall) (closed : Closed args after) :
    builderArguments? (written before serviceCall args after) = some (split ',' args) := by
  have reads : (servicePattern.find? (written before serviceCall args after)).map (·.group 0) = some args :=
    ((between_readsAs (by decide)).find?_group (between_reading (by decide))).mpr (service_first bare closed)
  obtain ⟨m, found, args⟩ := Option.map_eq_some_iff.mp reads
  simp only [builderArguments?, builders_eq, List.findSome?_cons, found, Option.map_some, args, List.drop_zero]

theorem service_none (bare : ¬ Mentions source.toList serviceCall) : servicePattern.find? source = none := by
  refine (find?_none (between_readsAs (by decide)).here).mpr ?_
  rintro lead ⟨rest, whole, inside, behind, between⟩
  refine bare ⟨lead, inside ++ (")".toList ++ behind), ?_⟩
  rw [whole, between.written, List.append_assoc]

-- What is found of the second builder is a call of it.
theorem cluster_found (found : clusterPattern.find? source = some m) :
    ∃ lead text inside behind, source.toList = lead ++ text ∧ Between clusterCall notNewline ")" text inside behind ∧
      m.group 0 = String.ofList inside := by
  obtain ⟨lead, rest, whole, _, here⟩ := (find?_some fun before rest => run_isSome (s := { before, rest })).mp found
  obtain ⟨t, ran, rfl⟩ := Option.map_eq_some_iff.mp here
  obtain ⟨s, front, goesOn⟩ := @run_append [word "return", .one isBlank, .many notNewline] _ _ _ ran
  obtain ⟨_, rfl, blank, _, rfl, _, line, _, rfl, _, rfl⟩ := front.leads
  obtain ⟨closed, groups, none⟩ := front.groups
  obtain ⟨inside, between, kept⟩ := run_between goesOn
  refine ⟨lead ++ ("return".toList ++ blank :: line), s.rest, inside, t.rest, by simp [whole], between, ?_⟩
  rw [List.length_eq_zero_iff.mp none] at groups
  rw [Match.group, kept, groups]
  rfl

theorem cluster_isSome (returned : Returned before args after) (closed : Closed args after) :
    ∃ m, clusterPattern.find? (written before clusterCall args after) = some m := by
  obtain ⟨front, line, named, inLine⟩ := returned.line
  have whole : (written before clusterCall args after).toList = front ++ ("return ".toList ++
      (line ++ (clusterCall.toList ++ (args.toList ++ (")".toList ++ after.toList))))) := by
    rw [written_toList, named]
    simp only [List.append_assoc]
  refine Option.ne_none_iff_exists'.mp fun none => ?_
  refine (find?_none fun before rest => run_isSome (s := { before, rest })).mp none front ⟨_, whole, ?_⟩
  exact ⟨_, rfl, ' ', _, rfl, by decide, line, _, rfl, inLine_iff.mpr inLine, _, rfl, args.toList, _, rfl,
    inLine_iff.mpr closed.inLine, _, rfl, trivial⟩

theorem cluster_arguments (returned : Returned before args after) (closed : Closed args after) :
    builderArguments? (written before clusterCall args after) = some ((split ',' args).drop 2) := by
  obtain ⟨m, found⟩ := cluster_isSome returned closed
  obtain ⟨lead, text, inside, behind, split', between, group⟩ := cluster_found found
  obtain rfl := returned.only lead _ (between.written ▸ split')
  have same := List.append_cancel_left (written_toList.symm.trans split')
  obtain ⟨rfl, _⟩ := (closed.between _).unique (same ▸ between)
  rw [String.ofList_toList] at group
  rw [builderArguments?, builders_eq, List.findSome?_cons, service_none returned.other, Option.map_none,
    List.findSome?_cons, found, Option.map_some, group]

theorem no_arguments (bare : ¬ Mentions source.toList serviceCall) (bare' : ¬ Mentions source.toList clusterCall) :
    builderArguments? source = none := by
  have none : clusterPattern.find? source = none := by
    refine Option.eq_none_iff_forall_ne_some.mpr fun m found => ?_
    obtain ⟨lead, text, inside, behind, whole, between, _⟩ := cluster_found found
    exact bare' ⟨lead, inside ++ (")".toList ++ behind), by rw [whole, between.written, List.append_assoc]⟩
  rw [builderArguments?, builders_eq, List.findSome?_cons, service_none bare, Option.map_none, List.findSome?_cons,
    none]
  rfl

theorem builderUrl?_segmented {pieces : List String} (arguments : builderArguments? source = some pieces) :
    ∃ segments, Segmented literal? pieces segments ∧ builderUrl? literal? source = some (join "/" segments) :=
  ⟨_, pieces_segmented literal? pieces, by rw [builderUrl?, arguments, Option.map_some]⟩

-- The first call of the one builder is evaluated argument by argument, or else the only one of the other.
theorem builder_segments (literal? : String → Option String) :
    (∀ before args after : String, ¬ Mentions before.toList serviceCall → Closed args after →
      ∃ segments, Segmented literal? (split ',' args) segments ∧
        builderUrl? literal? (written before serviceCall args after) = some (join "/" segments)) ∧
    (∀ before args after : String, Returned before args after → Closed args after →
      ∃ segments, Segmented literal? ((split ',' args).drop 2) segments ∧
        builderUrl? literal? (written before clusterCall args after) = some (join "/" segments)) ∧
    ∀ source : String, ¬ Mentions source.toList serviceCall → ¬ Mentions source.toList clusterCall →
      builderUrl? literal? source = none := by
  refine ⟨fun before args after bare closed => ?_, fun before args after returned closed => ?_,
    fun source bare bare' => ?_⟩
  · exact builderUrl?_segmented (service_arguments bare closed)
  · exact builderUrl?_segmented (cluster_arguments returned closed)
  · rw [builderUrl?, no_arguments bare bare', Option.map_none]

def rootLiteral? (name : String) : Option String := if name = "root" then some "v2" else none

def portArgs : String := "root, c.ProjectID, , \"ports\", id"

def nodeArgs : String := "region, c.ProjectID, \"nodes\", id"

theorem nodes_returned : Returned "return " nodeArgs "\n" := by
  have places : ∀ n < 60, clusterCall.toList.isPrefixOf
      ((written "return " clusterCall nodeArgs "\n").toList.drop n) = true → n = 7 := by decide +kernel
  refine ⟨by decide, fun lead behind whole => ?_, [], [], rfl, by decide⟩
  have size := congrArg List.length whole
  rw [List.length_append, show List.length _ = 55 from by decide +kernel] at size
  have place := places lead.length (by omega)
    (by rw [whole, List.drop_left]; exact List.isPrefixOf_iff_prefix.mpr (List.prefix_append _ _))
  have front := congrArg (List.take 7) whole
  rw [← place, List.take_left, place] at front
  exact front.symm

theorem builder_segments_ports :
    (∃ segments, Segmented rootLiteral? (split ',' portArgs) segments ∧
      join "/" segments = "v2/\x7bproject_id\x7d/ports/\x7bid\x7d") ∧
    (∃ segments, Segmented rootLiteral? ((split ',' nodeArgs).drop 2) segments ∧
      join "/" segments = "nodes/\x7bid\x7d") ∧
    builderUrl? rootLiteral? "return rootURL(c)" = none := by
  obtain ⟨first, only, neither⟩ := builder_segments rootLiteral?
  refine ⟨?_, ?_, neither _ (by decide) (by decide)⟩
  · obtain ⟨segments, segmented, url⟩ := first "return c" portArgs "\n" (by decide) ⟨by decide, by decide⟩
    have read : builderUrl? rootLiteral? (written "return c" serviceCall portArgs "\n") =
        some "v2/\x7bproject_id\x7d/ports/\x7bid\x7d" := by decide +kernel
    exact ⟨segments, segmented, Option.some.inj (url.symm.trans read)⟩
  · obtain ⟨segments, segmented, url⟩ := only "return " nodeArgs "\n" nodes_returned ⟨by decide, by decide⟩
    have read : builderUrl? rootLiteral? (written "return " clusterCall nodeArgs "\n") = some "nodes/\x7bid\x7d" := by
      decide +kernel
    exact ⟨segments, segmented, Option.some.inj (url.symm.trans read)⟩

end Builders

end CallAtlas.Sdk.Rest
