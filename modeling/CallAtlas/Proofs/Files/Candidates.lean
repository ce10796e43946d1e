import CallAtlas.Discovery
import CallAtlas.Proofs.Data.Readable
import CallAtlas.Proofs.Path.Join
import CallAtlas.Proofs.Path.Order

namespace CallAtlas

open CallAtlas.Text

-- A tree of files: one entry at a place, which is reached through names.
structure Disk.Proper (d : Disk) : Prop where
  once : (d.entries.map Prod.fst).Nodup
  below : ∀ entry ∈ d.entries, entry.1 ≠ []
  named : ∀ entry ∈ d.entries, ∀ n ∈ entry.1, Path.IsName n

namespace Disk

variable {d : Disk} {root : Path}

theorem spelled_components {names : List String} (plain : ∀ n ∈ names, Path.IsName n) (root : Path) :
    (spelled root names).components = root.components ++ names.map Path.Component.name := by
  induction names generalizing root with
  | nil => exact (List.append_nil _).symm
  | cons n rest ih =>
    obtain ⟨first, others⟩ := List.forall_mem_cons.mp plain
    have further := ih others (root.join n)
    rw [Path.components_join_name root first, List.append_assoc] at further
    exact further

theorem spelled_inj {names others : List String} (plain : ∀ n ∈ names, Path.IsName n)
    (plain' : ∀ n ∈ others, Path.IsName n)
    (same : (spelled root names).components = (spelled root others).components) : names = others := by
  rw [spelled_components plain, spelled_components plain', List.append_cancel_left_eq] at same
  exact List.map_injective_iff.mpr (fun _ _ => Path.Component.name.inj) same

theorem Proper.entry_at (proper : d.Proper) {place : Place} {e : Entry}
    (member : (place, e) ∈ d.entries) : d.entry? place = some e := by
  have filled : place.isEmpty = false := by simpa using proper.below _ member
  obtain ⟨before, after, split⟩ := List.append_of_mem member
  have nodup := proper.once
  rw [split, List.map_append, List.map_cons, List.nodup_middle, List.nodup_cons] at nodup
  unfold entry?
  rw [filled, if_neg Bool.false_ne_true, List.lookup_eq_some_iff]
  refine ⟨before, after, split, ?_⟩
  intro other early
  rw [bne_iff_ne]
  intro same
  have twice : place ∈ before.map Prod.fst := same ▸ List.mem_map_of_mem early
  exact nodup.1 (List.mem_append_left _ twice)

theorem visit?_exact {place : Place} {entry : Place × Entry} {met : Path × Place}
    (visited : d.visit? root place entry = some met) :
    (∃ body, entry = (met.2, .file body)) ∧ place <+: met.2 ∧
      met.1 = spelled root (met.2.drop place.length) := by
  obtain ⟨at_, e⟩ := entry
  cases e with
  | dir => cases visited
  | file body =>
    simp only [visit?] at visited
    split at visited
    · rename_i below
      split at visited
      · cases visited
      · cases visited
        exact ⟨⟨body, rfl⟩, List.isPrefixOf_iff_prefix.mp below, rfl⟩
    · cases visited

-- Two files below one directory that are met under one path are one.
theorem Proper.visit?_inj (proper : d.Proper) {place : Place} {one other : Place × Entry}
    {met met' : Path × Place} (member : one ∈ d.entries) (member' : other ∈ d.entries)
    (visited : d.visit? root place one = some met) (visited' : d.visit? root place other = some met')
    (same : met.1.components = met'.1.components) : one.1 = other.1 := by
  obtain ⟨⟨body, rfl⟩, ⟨below, whole⟩, spelling⟩ := visit?_exact visited
  obtain ⟨⟨body', rfl⟩, ⟨below', whole'⟩, spelling'⟩ := visit?_exact visited'
  have names : ∀ n ∈ met.2, Path.IsName n := proper.named _ member
  have names' : ∀ n ∈ met'.2, Path.IsName n := proper.named _ member'
  rw [← whole] at names
  rw [← whole'] at names'
  rw [spelling, spelling', ← whole, ← whole', List.drop_left, List.drop_left] at same
  have steps : below = below' :=
    spelled_inj (fun n inside => names n (List.mem_append_right _ inside))
      (fun n inside => names' n (List.mem_append_right _ inside)) same
  rw [← whole, ← whole', steps]

-- A walk meets each file once.
theorem Proper.walk_apart (proper : d.Proper) (root : Path) : Path.Apart Prod.fst (d.walk root) := by
  unfold walk
  split
  · exact List.pairwise_singleton _ _
  · have once := proper.once
    rw [List.Nodup, List.pairwise_map] at once
    rw [Path.Apart, List.pairwise_filterMap]
    refine once.imp_of_mem ?_
    intro one other member member' apart met visited met' visited'
    rw [Path.same, beq_eq_false_iff_ne]
    intro same
    exact apart (proper.visit?_inj member member' visited visited' same)
  · exact .nil

theorem Proper.walk_body (proper : d.Proper) {met : Path × Place} (member : met ∈ d.walk root) :
    ∃ body, d.bodyAt? met.2 = some body := by
  unfold walk at member
  split at member
  · rename_i body place start located
    cases List.mem_singleton.mp member
    obtain ⟨_, here, start⟩ := Option.bind_eq_some_iff.mp start
    cases located.symm.trans here
    obtain ⟨e, there, start⟩ := Option.bind_eq_some_iff.mp start
    cases e with
    | dir => cases start
    | file found => exact ⟨found, by rw [bodyAt?, there]⟩
  · obtain ⟨entry, inside, visited⟩ := List.mem_filterMap.mp member
    obtain ⟨⟨body, rfl⟩, _⟩ := visit?_exact visited
    refine ⟨body, ?_⟩
    rw [bodyAt?, proper.entry_at inside]
  · cases member

end Disk

namespace Discovery

variable {d : Disk} {root : Path}

-- Whether a file is named as a resource, and its path from the starting point wanted by the filter.
def isWanted (root : Path) (filter : Option String) (path : Path) : Bool :=
  path.fileName?.any isResourceFile &&
    filter.all (contains ((path.relativeTo? root).getD path).text)

theorem candidates_paths (proper : d.Proper) (root : Path) (filter : Option String) :
    (candidates d root filter).map Candidate.path =
      ((d.walk root).map Prod.fst).filter (isWanted root filter) := by
  unfold candidates
  rw [List.map_filterMap, ← List.filterMap_eq_filter, List.filterMap_map]
  apply List.filterMap_congr
  rintro ⟨path, place⟩ member
  obtain ⟨body, present⟩ := proper.walk_body member
  dsimp only at present
  have filtered : (filter.map (contains ((path.relativeTo? root).getD path).text)).getD true =
      filter.all (contains ((path.relativeTo? root).getD path).text) := by
    cases filter <;> rfl
  cases named : path.fileName? with
  | none => simp [isWanted, named, Option.guard]
  | some name =>
    simp only [Option.bind_eq_bind, Option.bind_some, present, filtered, Function.comp, isWanted,
      named, Option.any_some, Option.guard]
    split <;> rfl

theorem candidates_named {filter : Option String} {f : Candidate}
    (member : f ∈ candidates d root filter) :
    ∃ name, f.path.fileName? = some name ∧ isResourceFile name = true := by
  obtain ⟨⟨path, place⟩, _, made⟩ := List.mem_filterMap.mp member
  obtain ⟨name, named, made⟩ := Option.bind_eq_some_iff.mp made
  obtain ⟨body, _, made⟩ := Option.bind_eq_some_iff.mp made
  dsimp only at made
  split at made
  · rename_i chosen
    cases made
    exact ⟨name, named, (Bool.and_eq_true_iff.mp chosen).1⟩
  · cases made

end Discovery

namespace SkippedFile

variable {α β : Type}

-- Files that go on, and those left out, where each does one or the other.
def kept (results : List (Except SkippedFile α)) : List α := results.filterMap Except.toOption

def refusal? : Except SkippedFile α → Option SkippedFile
  | .ok _ => none
  | .error f => some f

def leftOut (results : List (Except SkippedFile α)) : List SkippedFile := results.filterMap refusal?

@[simp]
theorem leftOut_nil : leftOut ([] : List (Except SkippedFile α)) = [] := rfl

def settledPath (path : α → Path) : Except SkippedFile α → Path
  | .ok a => path a
  | .error f => f.path

theorem settled_perm (path : α → Path) (results : List (Except SkippedFile α)) :
    ((kept results).map path ++ (leftOut results).map SkippedFile.path).Perm
      (results.map (settledPath path)) := by
  induction results with
  | nil => exact .nil
  | cons result rest ih =>
    cases result with
    | ok a => exact ih.cons (path a)
    | error f => exact List.perm_middle.trans (ih.cons f.path)

end SkippedFile

namespace Discovery

open SkippedFile

variable {d : Disk} {root : Path} {s : Selection} {found : Discovery}

def judge (s : Selection) (globs : List Glob) (f : Candidate) : Except SkippedFile Path :=
  match f.skipReason? s globs with
  | none => .ok f.path
  | some reason => .error ⟨f.path, reason⟩

theorem judge_path (s : Selection) (globs : List Glob) (f : Candidate) :
    settledPath id (judge s globs f) = f.path := by
  unfold judge
  cases f.skipReason? s globs <;> rfl

theorem find_eq {globs : List Glob} (read : globsOf s.exclude = .ok globs) :
    find d root s = .ok
      { resources := Path.sort (kept ((candidates d root s.filter).map (judge s globs)))
        skipped := SkippedFile.sort (leftOut ((candidates d root s.filter).map (judge s globs))) } := by
  have resources : ∀ fs : List Candidate, kept (fs.map (judge s globs)) =
      (fs.filter fun f => (f.skipReason? s globs).isNone).map Candidate.path := by
    intro fs
    rw [kept, List.filterMap_map, ← List.filterMap_eq_map, ← List.filterMap_eq_filter,
      List.filterMap_filterMap]
    refine List.filterMap_congr ?_
    intro f _
    cases reason : f.skipReason? s globs <;> simp [judge, reason, Option.guard, Except.toOption]
  have skipped : ∀ fs : List Candidate, leftOut (fs.map (judge s globs)) =
      fs.filterMap fun f => (f.skipReason? s globs).map (SkippedFile.mk f.path) := by
    intro fs
    rw [leftOut, List.filterMap_map]
    refine List.filterMap_congr ?_
    intro f _
    cases reason : f.skipReason? s globs <;> simp [judge, reason, refusal?]
  unfold find
  rw [read, resources, skipped]
  rfl

theorem find_failed {e : Failure} (failed : globsOf s.exclude = .error e) :
    find d root s = .error e := by
  unfold find
  rw [failed]
  rfl

theorem find_read (ran : find d root s = .ok found) : ∃ globs, globsOf s.exclude = .ok globs := by
  cases read : globsOf s.exclude with
  | ok globs => exact ⟨globs, rfl⟩
  | error e => cases (find_failed read).symm.trans ran

-- A candidate is kept or left out, and nothing else is.
theorem find_accounts (ran : find d root s = .ok found) :
    (found.resources ++ found.skipped.map SkippedFile.path).Perm
      ((candidates d root s.filter).map Candidate.path) := by
  obtain ⟨globs, read⟩ := find_read ran
  cases (find_eq read).symm.trans ran
  have judged := settled_perm id ((candidates d root s.filter).map (judge s globs))
  rw [List.map_id, List.map_map] at judged
  have paths : settledPath id ∘ judge s globs = Candidate.path := funext (judge_path s globs)
  rw [paths] at judged
  refine .trans (.append ?_ ?_) judged
  · exact List.mergeSort_perm _ _
  · exact (List.mergeSort_perm _ _).map _

theorem find_empty {globs : List Glob} (read : globsOf s.exclude = .ok globs)
    (ran : find d root s = .ok found) :
    found.resources = [] ↔ ∀ f ∈ candidates d root s.filter, (f.skipReason? s globs).isSome = true := by
  cases (find_eq read).symm.trans ran
  dsimp only
  rw [← List.length_eq_zero_iff, Path.sort, List.length_mergeSort, List.length_eq_zero_iff, kept,
    List.filterMap_eq_nil_iff, List.forall_mem_map]
  refine forall₂_congr ?_
  intro f _
  cases reason : f.skipReason? s globs <;> simp [judge, reason, Except.toOption]

theorem globsOf_ok {patterns : List String} {globs : List Glob} :
    globsOf patterns = .ok globs ↔ patterns.mapM (Glob.read? excludeRules) = some globs := by
  unfold globsOf
  cases patterns.mapM (Glob.read? excludeRules) <;> simp

theorem mem_globsOf {patterns : List String} {globs : List Glob} (read : globsOf patterns = .ok globs) {glob : Glob} :
    glob ∈ globs ↔ ∃ pattern ∈ patterns, Glob.read? excludeRules pattern = some glob := by
  have parsed := mapM_eq_some.mp (globsOf_ok.mp read)
  clear read
  induction parsed with
  | nil => simp
  | cons here _ ih => simp only [List.mem_cons, ih, exists_eq_or_imp, here, Option.some.injEq, eq_comm (a := glob)]

theorem globsOf_error {patterns : List String} :
    (∃ e, globsOf patterns = .error e) ↔ ∃ text ∈ patterns, Glob.read? excludeRules text = none := by
  have failed : (∃ e, globsOf patterns = .error e) ↔
      ¬ (patterns.mapM (Glob.read? excludeRules)).isSome = true := by
    unfold globsOf
    cases patterns.mapM (Glob.read? excludeRules) <;> simp
  rw [failed, mapM_isSome]
  simp

end Discovery

end CallAtlas
