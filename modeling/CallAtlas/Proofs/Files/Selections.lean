import CallAtlas.Proofs.Files.Candidates
import CallAtlas.Proofs.Files.Globs
import Mathlib.Data.List.Basic

namespace CallAtlas

open CallAtlas.Text

-- A selection with the filter and the schema of another and all that the other leaves out.
structure Selection.Extends (narrow wide : Selection) : Prop where
  filter : wide.filter = narrow.filter
  schema : wide.schema = narrow.schema
  exclude : narrow.exclude ⊆ wide.exclude
  skipDirs : narrow.skipDirs ⊆ wide.skipDirs
  deprecated : narrow.deprecated ⊆ wide.deprecated
  codeMarkers : narrow.codeMarkers ⊆ wide.codeMarkers

def Selection.WellFormed (s : Selection) : Prop :=
  ∀ pattern ∈ s.exclude, (Glob.read? Discovery.excludeRules pattern).isSome = true

namespace Candidate

variable {f : Candidate} {s narrow wide : Selection} {globs : List Glob}

-- The rules by which a file is left out, in no order.
inductive LeftOut (s : Selection) (f : Candidate) : Prop where
  | directory {name : String} (above : .name name ∈ f.relative.components.dropLast) (listed : name ∈ s.skipDirs)
  | deprecated {entry : String} (listed : entry ∈ s.deprecated) (named : contains f.name entry = true)
  | excluded {pattern : String} {glob : Glob} (listed : pattern ∈ s.exclude)
      (read : Glob.read? Discovery.excludeRules pattern = some glob) (accepted : f.isExcluded [glob] = true)
  | unexported (hidden : s.schema.isExported f.stem = false)
  | marked {line marker : String} (head : line ∈ f.body.lines.take headLines) (listed : marker ∈ s.codeMarkers)
      (inside : contains line marker = true)

-- Each rule goes by what is listed for it, so more lists leave out more.
theorem LeftOut.extend (more : narrow.Extends wide) (left : f.LeftOut narrow) : f.LeftOut wide := by
  cases left with
  | directory above listed => exact .directory above (more.skipDirs listed)
  | deprecated listed named => exact .deprecated (more.deprecated listed) named
  | excluded listed read accepted => exact .excluded (more.exclude listed) read accepted
  | unexported hidden => exact .unexported (more.schema ▸ hidden)
  | marked head listed inside => exact .marked head (more.codeMarkers listed) inside

theorem skippedDir?_isSome (dirs : List String) : (f.skippedDir? dirs).isSome = true ↔
    ∃ name, .name name ∈ f.relative.components.dropLast ∧ name ∈ dirs := by
  unfold skippedDir?
  rw [List.findSome?_isSome_iff]
  constructor
  · rintro ⟨component, above, skips⟩
    cases component with
    | name n =>
      refine ⟨n, above, ?_⟩
      by_contra other
      simp [other] at skips
    | root | here | parent => cases skips
  · rintro ⟨n, above, listed⟩
    exact ⟨.name n, above, by simp [listed]⟩

theorem marker?_isSome (markers : List String) : (f.marker? markers).isSome = true ↔
    ∃ line ∈ f.body.lines.take headLines, ∃ marker ∈ markers, contains line marker = true := by
  unfold marker?
  simp only [List.findSome?_isSome_iff, List.find?_isSome]

theorem isExcluded_iff (read : Discovery.globsOf s.exclude = .ok globs) : f.isExcluded globs = true ↔
    ∃ pattern ∈ s.exclude, ∃ glob, Glob.read? Discovery.excludeRules pattern = some glob ∧
      f.isExcluded [glob] = true := by
  simp only [isExcluded, List.any_eq_true, Discovery.mem_globsOf read, List.mem_singleton, exists_eq_left]
  constructor
  · rintro ⟨glob, ⟨pattern, listed, parsed⟩, accepted⟩
    exact ⟨pattern, listed, glob, parsed, accepted⟩
  · rintro ⟨pattern, listed, glob, parsed, accepted⟩
    exact ⟨glob, ⟨pattern, listed, parsed⟩, accepted⟩

-- The first rule that applies names the reason, and a file stays only if none does.
theorem skipReason?_isSome (read : Discovery.globsOf s.exclude = .ok globs) :
    (f.skipReason? s globs).isSome = true ↔ f.LeftOut s := by
  have rules : (f.skipReason? s globs).isSome = true ↔
      (f.skippedDir? s.skipDirs).isSome = true ∨ (s.deprecated.find? (contains f.name)).isSome = true ∨
        f.isExcluded globs = true ∨ s.schema.isExported f.stem = false ∨
          (f.marker? s.codeMarkers).isSome = true := by
    unfold skipReason?
    cases f.skippedDir? s.skipDirs <;> cases s.deprecated.find? (contains f.name) <;>
      cases f.isExcluded globs <;> cases s.schema.isExported f.stem <;> simp
  rw [rules, skippedDir?_isSome, List.find?_isSome, isExcluded_iff read, marker?_isSome]
  constructor
  · rintro (⟨name, above, listed⟩ | ⟨entry, listed, named⟩ | ⟨pattern, listed, glob, parsed, accepted⟩ |
      hidden | ⟨line, head, marker, listed, inside⟩)
    · exact .directory above listed
    · exact .deprecated listed named
    · exact .excluded listed parsed accepted
    · exact .unexported hidden
    · exact .marked head listed inside
  · intro left
    cases left with
    | directory above listed => exact .inl ⟨_, above, listed⟩
    | deprecated listed named => exact .inr (.inl ⟨_, listed, named⟩)
    | excluded listed parsed accepted => exact .inr (.inr (.inl ⟨_, listed, _, parsed, accepted⟩))
    | unexported hidden => exact .inr (.inr (.inr (.inl hidden)))
    | marked head listed inside => exact .inr (.inr (.inr (.inr ⟨_, head, _, listed, inside⟩)))

end Candidate

namespace Discovery

variable {d : Disk} {root : Path} {s narrow wide : Selection} {globs : List Glob} {found : Discovery}

theorem find_resources (read : globsOf s.exclude = .ok globs) (ran : find d root s = .ok found) :
    found.resources.Perm
      (((candidates d root s.filter).filter fun f => (f.skipReason? s globs).isNone).map Candidate.path) := by
  unfold find at ran
  rw [read] at ran
  cases ran
  exact List.mergeSort_perm _ _

theorem find_skipped (read : globsOf s.exclude = .ok globs) (ran : find d root s = .ok found) :
    (found.skipped.map SkippedFile.path).Perm
      (((candidates d root s.filter).filter fun f => (f.skipReason? s globs).isSome).map Candidate.path) := by
  have paths : ∀ fs : List Candidate,
      (fs.filterMap fun f => (f.skipReason? s globs).map (SkippedFile.mk f.path)).map SkippedFile.path =
        (fs.filter fun f => (f.skipReason? s globs).isSome).map Candidate.path := by
    intro fs
    induction fs with
    | nil => rfl
    | cons f rest ih => cases reason : f.skipReason? s globs <;> simp [reason, ih]
  unfold find at ran
  rw [read] at ran
  cases ran
  rw [← paths]
  exact (List.mergeSort_perm _ _).map _

theorem find_runs (valid : s.WellFormed) :
    ∃ globs found, globsOf s.exclude = .ok globs ∧ find d root s = .ok found := by
  cases read : globsOf s.exclude with
  | ok globs => exact ⟨globs, _, rfl, find_eq read⟩
  | error e =>
    obtain ⟨pattern, listed, unread⟩ := globsOf_error.mp ⟨e, read⟩
    have parsed := valid pattern listed
    rw [unread] at parsed
    cases parsed

-- With more to leave out, a search finds the same files, keeps no further one and leaves out at least as many.
theorem find_extends (d : Disk) (root : Path) (more : narrow.Extends wide) (valid : wide.WellFormed) :
    ∃ found found', find d root narrow = .ok found ∧ find d root wide = .ok found' ∧
      (found'.resources ++ found'.skipped.map SkippedFile.path).Perm
        (found.resources ++ found.skipped.map SkippedFile.path) ∧
      found'.resources.Subperm found.resources ∧
      (found.skipped.map SkippedFile.path).Subperm (found'.skipped.map SkippedFile.path) := by
  have valid_narrow : narrow.WellFormed := fun pattern listed => valid pattern (more.exclude listed)
  obtain ⟨globs, found, read, ran⟩ := @find_runs d root narrow valid_narrow
  obtain ⟨globs', found', read', ran'⟩ := @find_runs d root wide valid
  have left : ∀ f : Candidate, (f.skipReason? narrow globs).isSome = true →
      (f.skipReason? wide globs').isSome = true := by
    intro f
    rw [Candidate.skipReason?_isSome read, Candidate.skipReason?_isSome read']
    exact Candidate.LeftOut.extend more
  have kept : ∀ f : Candidate, (f.skipReason? wide globs').isNone = true →
      (f.skipReason? narrow globs).isNone = true := by
    intro f
    rw [← Option.not_isSome, ← Option.not_isSome, Bool.not_eq_true', Bool.not_eq_true']
    exact fun stays => Bool.eq_false_iff.mpr (mt (left f) (Bool.eq_false_iff.mp stays))
  have resources := find_resources read ran
  have resources' := find_resources read' ran'
  have skipped := find_skipped read ran
  have skipped' := find_skipped read' ran'
  have accounts := find_accounts ran
  have accounts' := find_accounts ran'
  rw [more.filter] at resources' skipped' accounts'
  refine ⟨found, found', ran, ran', accounts'.trans accounts.symm, ?_, ?_⟩
  · have among := (List.monotone_filter_right (candidates d root narrow.filter) kept).map Candidate.path
    exact (resources'.subperm.trans among.subperm).trans resources.symm.subperm
  · have among := (List.monotone_filter_right (candidates d root narrow.filter) left).map Candidate.path
    exact (skipped.subperm.trans among.subperm).trans skipped'.symm.subperm

def stocked : Disk where
  entries :=
    [(["s"], .dir), (["s", "old"], .dir), (["s", "old", "resource_a.go"], .file (.text "")),
     (["s", "resource_b.go"], .file (.text "")), (["s", "resource_c.go"], .file (.text ""))]

def brief : Selection where
  exclude := ["old/**"]
  schema := .acceptAll "huaweicloud"

def thorough : Selection where
  exclude := ["old/**"]
  skipDirs := ["old"]
  deprecated := ["_b"]
  schema := .acceptAll "huaweicloud"

theorem find_extends_stocked :
    brief.Extends thorough ∧ thorough.WellFormed ∧
      ∃ found found', find stocked ⟨"/s"⟩ brief = .ok found ∧ find stocked ⟨"/s"⟩ thorough = .ok found' ∧
        ⟨"/s/resource_b.go"⟩ ∈ found.resources ∧ ⟨"/s/resource_b.go"⟩ ∈ found'.skipped.map SkippedFile.path ∧
        ⟨"/s/old/resource_a.go"⟩ ∈ found'.skipped.map SkippedFile.path ∧
        found'.resources.Subperm found.resources := by
  have parsed : Glob.read? excludeRules "old/**" = some (.below excludeRules "old") :=
    Glob.read?_below (by decide : Glob.Plain "old")
  have more : brief.Extends thorough :=
    ⟨rfl, rfl, by simp [brief, thorough], by simp [brief], by simp [brief], by simp [brief]⟩
  have valid : thorough.WellFormed := by
    simp [Selection.WellFormed, thorough, parsed]
  have read : globsOf ["old/**"] = .ok [.below excludeRules "old"] := by
    simp [globsOf, parsed]
  obtain ⟨found, found', ran, ran', _, kept, left⟩ := find_extends stocked ⟨"/s"⟩ more valid
  have resources := find_resources (s := brief) read ran
  have skipped := find_skipped (s := brief) read ran
  have skipped' := find_skipped (s := thorough) read ran'
  refine ⟨more, valid, found, found', ran, ran', ?_, ?_, ?_, kept⟩
  · exact resources.mem_iff.mpr (by decide +kernel)
  · exact skipped'.mem_iff.mpr (by decide +kernel)
  · exact left.subset (skipped.mem_iff.mpr (by decide +kernel))

end Discovery

end CallAtlas
