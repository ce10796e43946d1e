import CallAtlas.Proofs.Files.Places
import CallAtlas.Proofs.Files.Writing
import CallAtlas.Proofs.Sdk.Separation

namespace CallAtlas

open CallAtlas.Text

namespace Path

theorem componentsOf_first {piece : String} (filled : piece ≠ "") (more : List String) :
    componentsOf (piece :: more) true ≠ [] := by
  simp only [componentsOf, beq_iff_eq, filled, if_false]
  split
  · exact List.cons_ne_nil _ _
  · split <;> exact List.cons_ne_nil _ _

-- The empty path is the only one without components.
theorem components_eq_nil {p : Path} : p.components = [] ↔ p.text = "" := by
  obtain ⟨text⟩ := p
  refine ⟨?_, ?_⟩
  swap
  · rintro rfl
    simp [components, isAbsolute, split, splitBy, componentsOf, startsWith]
  intro none
  cases chars : text.toList with
  | nil => exact String.toList_eq_nil_iff.mp chars
  | cons c rest =>
    unfold components at none
    split at none
    · cases none
    · rename_i relative
      have slash : (c == '/') = false := by
        cases first : c == '/' with
        | false => rfl
        | true =>
          cases beq_iff_eq.mp first
          exact absurd (by simp [isAbsolute, startsWith, chars]) relative
      obtain ⟨piece, more, pieces⟩ : ∃ piece more, split '/' text = String.ofList (c :: piece) :: more := by
        unfold split
        rw [chars, splitBy, slash]
        cases splitBy (· == '/') rest with
        | nil => exact ⟨[], [], rfl⟩
        | cons piece more => exact ⟨piece, more.map String.ofList, rfl⟩
      have filled : String.ofList (c :: piece) ≠ "" := by
        intro empty
        have chars := congrArg String.toList empty
        rw [String.toList_ofList] at chars
        cases chars
      rw [pieces] at none
      exact absurd none (componentsOf_first filled more)

end Path

namespace Disk

variable {d d' : Disk}

theorem follow_name (at_ : Place) (steps : List Path.Component) (n : String) :
    d.follow at_ (steps ++ [.name n]) =
      (d.follow at_ steps).bind fun place => if d.isDirAt place then some (place ++ [n]) else none := by
  rw [follow_append]
  rfl

-- The place that a directory's path leads to.
def placeOf? (d : Disk) (dir : Path) : Option Place := d.follow d.start dir.components

theorem locate?_join (dir : Path) {n : String} (plain : Path.IsName n) :
    d.locate? (dir.join n) =
      (d.placeOf? dir).bind fun place => if d.isDirAt place then some (place ++ [n]) else none := by
  have filled : ((dir.join n).text == "") = false := by
    rw [beq_eq_false_iff_ne]
    intro empty
    have parts := Path.components_join_name dir plain
    rw [show dir.join n = ⟨""⟩ from congrArg Path.mk empty] at parts
    exact absurd parts.symm (List.append_ne_nil_of_right_ne_nil _ (List.cons_ne_nil _ _))
  rw [locate?, filled, if_neg Bool.false_ne_true, Path.components_join_name dir plain, follow_name]
  rfl

theorem read?_join (dir : Path) {n : String} (plain : Path.IsName n) :
    d.read? (dir.join n) =
      (d.placeOf? dir).bind fun place => if d.isDirAt place then d.bodyAt? (place ++ [n]) else none := by
  have located := d.locate?_join dir plain
  cases followed : d.placeOf? dir with
  | none =>
    rw [followed] at located
    simp [read?, at?, located]
  | some place =>
    rw [followed, Option.bind_some] at located
    rw [Option.bind_some]
    split at located
    · rename_i directory
      rw [read?_located located (namesDirectory_join dir plain), if_pos directory]
    · rename_i file
      rw [if_neg file]
      simp [read?, at?, located]

-- The names of the files at a place, as a directory is listed.
def namesAt (d : Disk) (at_ : Place) : List String :=
  (d.entries.filterMap fun (p, e) =>
    match e with
    | .file _ => if p.dropLast == at_ then p.getLast? else none
    | .dir => none).mergeSort fun a b => decide (a ≤ b)

theorem fileNames_eq (dir : Path) :
    d.fileNames dir = if dir.text = "" then [] else ((d.placeOf? dir).map d.namesAt).getD [] := by
  unfold fileNames locate? placeOf?
  by_cases empty : dir.text = ""
  · simp [empty]
  · have filled : (dir.text == "") = false := beq_eq_false_iff_ne.mpr empty
    rw [filled, if_neg Bool.false_ne_true, if_neg empty]
    cases d.follow d.start dir.components <;> rfl

-- The disks differ in files directly at one place at most.
structure DifferAt (at_ : Place) (d d' : Disk) : Prop where
  tree : SameTree d d'
  names : ∀ place, place ≠ at_ → d.namesAt place = d'.namesAt place
  bodies : ∀ place n, place ≠ at_ → d.bodyAt? (place ++ [n]) = d'.bodyAt? (place ++ [n])

end Disk

namespace Sdk.SourceTree

-- Directories are told apart by their components, and files by directory and name.
structure Placed (tree : SourceTree) : Prop where
  lists : ∀ dir dir' : Path, dir.same dir' = true → tree.list dir = tree.list dir'
  files : ∀ (dir dir' : Path) (n : String), dir.same dir' = true → Path.IsName n →
    tree.isFile (dir.join n) = tree.isFile (dir'.join n)
  reads : ∀ (dir dir' : Path) (n : String), dir.same dir' = true → Path.IsName n →
    tree.read? (dir.join n) = tree.read? (dir'.join n)

theorem ofFiles_placed (files : List (Path × Body)) : (ofFiles files).Placed where
  lists dir dir' same := by simp only [ofFiles, beq_iff_eq.mp same]
  files dir dir' n same plain := by
    simp only [ofFiles, Path.components_join_name _ plain, beq_iff_eq.mp same]
  reads dir dir' n same plain := by
    simp only [ofFiles, Path.components_join_name _ plain, beq_iff_eq.mp same]

theorem ofDisk_placed (d : Disk) : (ofDisk d).Placed := by
  have places : ∀ dir dir' : Path, dir.same dir' = true → d.placeOf? dir = d.placeOf? dir' := by
    intro dir dir' same
    unfold Disk.placeOf?
    rw [beq_iff_eq.mp same]
  have reads : ∀ (dir dir' : Path) (n : String), dir.same dir' = true → Path.IsName n →
      d.read? (dir.join n) = d.read? (dir'.join n) := by
    intro dir dir' n same plain
    rw [Disk.read?_join dir plain, Disk.read?_join dir' plain, places dir dir' same]
  refine ⟨?_, fun dir dir' n same plain => congrArg Option.isSome (reads dir dir' n same plain), reads⟩
  intro dir dir' same
  have parts : dir.components = dir'.components := beq_iff_eq.mp same
  have empty : dir.text = "" ↔ dir'.text = "" := by
    rw [← Path.components_eq_nil, ← Path.components_eq_nil, parts]
  show d.fileNames dir = d.fileNames dir'
  rw [Disk.fileNames_eq, Disk.fileNames_eq, places dir dir' same]
  simp only [empty]

theorem ofDisk_listsNames {d : Disk} (proper : d.Proper) : (ofDisk d).ListsNames := by
  intro dir n member
  change n ∈ d.fileNames dir at member
  unfold Disk.fileNames at member
  split at member
  · cases member
  · obtain ⟨entry, listed, named⟩ := List.mem_filterMap.mp (List.mem_mergeSort.mp member)
    obtain ⟨place, e⟩ := entry
    dsimp only at named
    split at named
    · split at named
      · exact (proper.named _ listed n (List.mem_of_getLast? named)).2.2.2
      · cases named
    · cases named

-- Files in the order of their names are listed as they come.
theorem ofFiles_ordered {files : List (Path × Body)}
    (ordered : files.Pairwise fun f g => ∀ m n, f.1.components.getLast? = some (.name m) →
      g.1.components.getLast? = some (.name n) → m ≤ n) :
    ofFiles files = ⟨(ofFiles files).isFile, (ofFiles files).read?, fun dir =>
      files.filterMap fun f => nameIn? dir.components f.1.components⟩ := by
  have lists : ∀ dir, (ofFiles files).list dir =
      files.filterMap fun f => nameIn? dir.components f.1.components := by
    intro dir
    refine List.mergeSort_of_pairwise (List.pairwise_filterMap.mpr (ordered.imp ?_))
    intro f g order m first n second
    exact decide_eq_true (order m n (nameIn?_last first) (nameIn?_last second))
  rw [← funext lists]

theorem ofDisk_differIn {d d' : Disk} {at_ : Place} (differ : d.DifferAt at_ d') :
    DifferIn (fun dir => d.placeOf? dir == some at_) (ofDisk d) (ofDisk d') := by
  have places : ∀ dir, d'.placeOf? dir = d.placeOf? dir := by
    intro dir
    unfold Disk.placeOf?
    rw [differ.tree.start, differ.tree.follow]
  refine ⟨?_, ?_⟩
  · intro p q same
    have parts : p.components = q.components := beq_iff_eq.mp same
    simp only [Disk.placeOf?, parts]
  · intro dir other
    have reads : ∀ n, Path.IsName n → d.read? (dir.join n) = d'.read? (dir.join n) := by
      intro n plain
      rw [Disk.read?_join dir plain, Disk.read?_join dir plain, places]
      cases found : d.placeOf? dir with
      | none => rfl
      | some place =>
        have apart : place ≠ at_ := by simpa [found] using other
        simp only [Option.bind_some, differ.tree.dirs, differ.bodies place n apart]
    refine ⟨?_, fun n plain => congrArg Option.isSome (reads n plain), reads⟩
    show d.fileNames dir = d'.fileNames dir
    rw [Disk.fileNames_eq, Disk.fileNames_eq, places]
    cases found : d.placeOf? dir with
    | none => rfl
    | some place =>
      have apart : place ≠ at_ := by simpa [found] using other
      simp only [Option.map_some, differ.names place apart]

-- The path names something directly in a directory.
def LiesIn (dir p : Path) : Prop := ∃ n, p.components = dir.components ++ [.name n]

-- Trees made of files differ where files lie that only one of them has.
theorem ofFiles_differIn {place : Path} {mine yours : List (Path × Body)} (others : List (Path × Body))
    (mine_in : ∀ f ∈ mine, LiesIn place f.1) (yours_in : ∀ f ∈ yours, LiesIn place f.1) :
    DifferIn (·.same place) (ofFiles (mine ++ others)) (ofFiles (yours ++ others)) := by
  have unlisted : ∀ files : List (Path × Body), (∀ f ∈ files, LiesIn place f.1) →
      ∀ dir : Path, dir.same place = false →
        files.filterMap (fun f => nameIn? dir.components f.1.components) = [] := by
    intro files inside dir apart
    rw [List.filterMap_eq_nil_iff]
    intro f member
    obtain ⟨n, parts⟩ := inside f member
    have other : (place.components == dir.components) = false := by
      rw [Bool.beq_comm]
      exact apart
    simp [nameIn?, parts, other]
  have elsewhere : ∀ files : List (Path × Body), (∀ f ∈ files, LiesIn place f.1) →
      ∀ (dir : Path) (n : String), dir.same place = false → Path.IsName n →
        ∀ f ∈ files, ¬ (f.1.components == (dir.join n).components) = true := by
    intro files inside dir n apart plain f member same
    obtain ⟨m, parts⟩ := inside f member
    rw [parts, Path.components_join_name dir plain, beq_iff_eq] at same
    have dirs : dir.components = place.components := (List.append_inj' same rfl).1.symm
    rw [Path.same, dirs, beq_self_eq_true] at apart
    cases apart
  refine ⟨Path.same_ofPlaces place, ?_⟩
  intro dir apart
  refine ⟨?_, ?_, ?_⟩
  · simp only [ofFiles, List.filterMap_append, unlisted mine mine_in dir apart,
      unlisted yours yours_in dir apart]
  · intro n plain
    simp only [ofFiles, List.any_append, List.any_eq_false.mpr (elsewhere mine mine_in dir n apart plain),
      List.any_eq_false.mpr (elsewhere yours yours_in dir n apart plain)]
  · intro n plain
    simp only [ofFiles, List.find?_append, List.find?_eq_none.mpr (elsewhere mine mine_in dir n apart plain),
      List.find?_eq_none.mpr (elsewhere yours yours_in dir n apart plain)]

end Sdk.SourceTree

end CallAtlas
