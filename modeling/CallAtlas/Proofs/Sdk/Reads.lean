import CallAtlas.Proofs.Sdk.Lookups

namespace CallAtlas.Sdk

open CallAtlas.Text Resolving

-- Listed are files directly in a directory, so a name has no separator.
def SourceTree.ListsNames (tree : SourceTree) : Prop := ∀ dir, ∀ n ∈ tree.list dir, '/' ∉ n.toList

theorem SourceTree.nameIn?_last {dir file : List Path.Component} {n : String}
    (named : nameIn? dir file = some n) : file.getLast? = some (.name n) := by
  unfold nameIn? at named
  split at named
  · split at named
    · rename_i last
      cases named
      exact last
    · cases named
  · cases named

theorem ofFiles_listsNames (files : List (Path × Body)) : (SourceTree.ofFiles files).ListsNames := by
  intro dir n member
  obtain ⟨file, _, named⟩ := List.mem_filterMap.mp (List.mem_mergeSort.mp member)
  exact Path.name_without_slash (List.mem_of_getLast? (SourceTree.nameIn?_last named))

theorem mayRead_isName {tree : SourceTree} {dir : Path} {n : String} (lists : tree.ListsNames)
    (may : MayRead tree dir n) : Path.IsName n := by
  obtain ⟨ends, given⟩ := may
  have other : ∀ m : String, endsWith m ".go" = false → n ≠ m := by
    rintro m short rfl
    rw [ends] at short
    cases short
  refine ⟨other _ (by decide), other _ (by decide), other _ (by decide), ?_⟩
  have fixed : ∀ m ∈ Rest.requestFiles ++ Rest.urlFiles, '/' ∉ m.toList := by decide
  rcases given with request | url | listed
  · exact fixed n (List.mem_append_left _ request)
  · exact fixed n (List.mem_append_right _ url)
  · exact lists dir n listed

namespace Vendor

variable {v : Vendor} {s : State}

structure ReadOnce (s : State) : Prop where
  once : (s.reads.map Path.components).Nodup
  inside : ∀ p ∈ s.reads, ∃ d ∈ s.cache.packages, ∃ n, p.components = d.components ++ [.name n]

theorem readOnce_start : ReadOnce {} := ⟨.nil, nofun⟩

theorem ReadOnce.counting (valid : ReadOnce s) : ReadOnce (counting s) := ⟨valid.once, valid.inside⟩

theorem ReadOnce.entered_new {c : Convention} {dir : Path} {t : State} (valid : ReadOnce s)
    (lists : v.tree.ListsNames) (new : s.cache.packages.any (·.same dir) = false)
    (entered : v.Entered c dir s t) : ReadOnce t := by
  obtain ⟨names, distinct, may, reads⟩ := entered.reads
  have parts : ∀ n ∈ names, (dir.join n).components = dir.components ++ [.name n] := fun n member =>
    Path.components_join_name dir (mayRead_isName lists (may n member))
  refine ⟨?_, ?_⟩
  · rw [reads, List.map_append, List.nodup_append]
    refine ⟨valid.once, ?_, ?_⟩
    · have places : (names.map dir.join).map Path.components =
          names.map fun n => dir.components ++ [.name n] := by
        rw [List.map_map]
        exact List.map_congr_left parts
      rw [places]
      refine List.Pairwise.map _ ?_ distinct
      intro n m other same
      exact other (by simpa using same)
    -- A file that was read before lies in a marked directory, and this one is not marked.
    · intro old read added file same
      obtain ⟨p, before, rfl⟩ := List.mem_map.mp read
      obtain ⟨q, after, rfl⟩ := List.mem_map.mp file
      obtain ⟨n, member, rfl⟩ := List.mem_map.mp after
      obtain ⟨d, marked, m, place⟩ := valid.inside p before
      rw [place, parts n member] at same
      have dirs : d.components = dir.components := (List.append_inj' same rfl).1
      have unmarked := List.any_eq_false.mp new d marked
      simp [Path.same, dirs] at unmarked
  · intro p member
    rw [reads] at member
    rw [entered.packages]
    rcases List.mem_append.mp member with before | added
    · obtain ⟨d, marked, n, place⟩ := valid.inside p before
      exact ⟨d, List.mem_append_left _ marked, n, place⟩
    · obtain ⟨n, name, rfl⟩ := List.mem_map.mp added
      exact ⟨dir, by simp, n, parts n name⟩

theorem lookUp_readOnce (lists : v.tree.ListsNames) (l : Lookup) (valid : ReadOnce s) :
    ReadOnce (after (v.lookUp l) s) := by
  rw [(v.lookUp_exact l s).2]
  cases marked : s.cache.packages.any (·.same (v.dirOf l)) with
  | true =>
    rw [v.entered_old marked]
    exact valid.counting
  | false => exact (valid.entered_new lists marked (v.entered_new marked)).counting

theorem lookUpAll_readOnce (lists : v.tree.ListsNames) (ls : List Lookup) (valid : ReadOnce s) :
    ReadOnce (after (v.lookUpAll ls) s) := by
  induction ls generalizing s with
  | nil => exact valid
  | cons l rest ih =>
    unfold lookUpAll at ih ⊢
    rw [after_mapM_cons]
    exact ih (lookUp_readOnce lists l valid)

end Vendor

end CallAtlas.Sdk
