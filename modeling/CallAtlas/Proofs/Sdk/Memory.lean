import CallAtlas.Proofs.Sdk.Lookups

namespace CallAtlas.Sdk.Vendor

open CallAtlas.Text Resolving

variable {v : Vendor} {past ls : List Lookup} {l : Lookup} {s : State}

-- Lookups in one directory spell it in one way and follow one convention.
def Consistent (v : Vendor) (ls : List Lookup) : Prop :=
  ∀ l ∈ ls, ∀ l' ∈ ls, (v.dirOf l).same (v.dirOf l') = true →
    v.dirOf l = v.dirOf l' ∧ l.convention.kind = l'.convention.kind

theorem Consistent.of_subset (consistent : Consistent v ls) (part : past ⊆ ls) : Consistent v past :=
  fun l member l' member' => consistent l (part member) l' (part member')

theorem direct?_kind {l l' : Lookup} (dirs : v.dirOf l = v.dirOf l')
    (kinds : l.convention.kind = l'.convention.kind) (f : String) :
    v.direct? { l with function := f } = v.direct? { l' with function := f } := by
  have packages : l.convention.resolvePackage v.tree (v.dirOf l) =
      l'.convention.resolvePackage v.tree (v.dirOf l') := by
    unfold Convention.resolvePackage
    rw [kinds, dirs]
  exact congrArg (fun m => (answer m {}).bind (·.get? f)) packages

-- What is remembered after some lookups. Directories that were not asked for are as in the beginning.
structure Faithful (v : Vendor) (past : List Lookup) (s : State) : Prop where
  asked : ∀ d ∈ s.cache.packages, ∃ l ∈ past, d = v.dirOf l
  marked : ∀ l ∈ past, s.cache.packages.any (·.same (v.dirOf l)) = true
  known : ∀ l ∈ past, ∀ f, Dotless f →
    s.cache.endpoints.lookup (Cache.key (v.dirOf l) f) = v.direct? { l with function := f }
  unknown : ∀ d f, (∀ l ∈ past, d ≠ v.dirOf l) → Dotless f →
    s.cache.endpoints.lookup (Cache.key d f) = none
  files : ∀ p ∈ s.cache.urlFiles, ∃ l ∈ past, ∃ n ∈ Rest.urlFiles, p = (v.dirOf l).join n
  urls : ∀ p f, (∀ l ∈ past, ∀ n ∈ Rest.urlFiles, p ≠ (v.dirOf l).join n) → Dotless f →
    s.cache.url? p f = none

theorem faithful_start (v : Vendor) : Faithful v [] {} :=
  ⟨nofun, nofun, nofun, fun _ _ _ _ => rfl, nofun, fun _ _ _ _ => rfl⟩

theorem Faithful.counting (valid : Faithful v past s) : Faithful v past (counting s) :=
  ⟨valid.asked, valid.marked, valid.known, valid.unknown, valid.files, valid.urls⟩

theorem urlFile_isName : ∀ n ∈ Rest.urlFiles, Path.IsName n := by
  intro n member
  simp only [Rest.urlFiles, List.mem_cons, List.not_mem_nil, or_false] at member
  rcases member with rfl | rfl | rfl <;> exact ⟨by decide, by decide, by decide, by decide⟩

-- A package that was not asked for has its URL files as in the beginning, so its table is the direct
-- one.
theorem Faithful.alike_start (valid : Faithful v past s) {dir : Path}
    (new : s.cache.packages.any (·.same dir) = false) :
    ∀ n ∈ Rest.urlFiles, Alike (dir.join n) (marking dir s) {} := by
  intro n name
  have other : ∀ l ∈ past, ∀ n' ∈ Rest.urlFiles,
      (dir.join n).components ≠ ((v.dirOf l).join n').components := by
    intro l member n' name' same
    have dirs := (Path.join_name_inj (urlFile_isName n name) (urlFile_isName n' name') same).1
    have old := valid.marked l member
    have : s.cache.packages.any (·.same dir) = true := by
      simpa [Path.same, dirs] using old
    rw [new] at this
    cases this
  refine ⟨?_, ?_⟩
  · show s.cache.urlFiles.any (·.same (dir.join n)) = false
    rw [List.any_eq_false]
    intro p marked same
    obtain ⟨l, member, n', name', rfl⟩ := valid.files p marked
    exact other l member n' name' (beq_iff_eq.mp same).symm
  · intro f dotless
    refine valid.urls (dir.join n) f ?_ dotless
    intro l member n' name' same
    exact other l member n' name' (congrArg Path.components same)

theorem Faithful.entered_old (valid : Faithful v past s) (consistent : Consistent v (past ++ [l]))
    (old : s.cache.packages.any (·.same (v.dirOf l)) = true) : Faithful v (past ++ [l]) s := by
  obtain ⟨d, member, same⟩ := List.any_eq_true.mp old
  obtain ⟨l', asked, rfl⟩ := valid.asked d member
  obtain ⟨dirs, kinds⟩ := consistent l' (List.mem_append_left _ asked) l (by simp) same
  refine ⟨?_, ?_, ?_, ?_, ?_, ?_⟩
  · intro d member
    obtain ⟨k, asked, rfl⟩ := valid.asked d member
    exact ⟨k, List.mem_append_left _ asked, rfl⟩
  · intro k asked
    rcases List.mem_append.mp asked with before | last
    · exact valid.marked k before
    · cases List.mem_singleton.mp last; exact old
  · intro k member f name
    rcases List.mem_append.mp member with before | last
    · exact valid.known k before f name
    · cases List.mem_singleton.mp last
      rw [← dirs, valid.known l' asked f name]
      exact direct?_kind dirs kinds f
  · intro d f other
    exact valid.unknown d f fun k before => other k (List.mem_append_left _ before)
  · intro p marked
    obtain ⟨k, before, found⟩ := valid.files p marked
    exact ⟨k, List.mem_append_left _ before, found⟩
  · intro p f other
    exact valid.urls p f fun k before => other k (List.mem_append_left _ before)

theorem Faithful.entered_new {t : State} (valid : Faithful v past s)
    (new : s.cache.packages.any (·.same (v.dirOf l)) = false)
    (entered : v.Entered l.convention (v.dirOf l) s t) : Faithful v (past ++ [l]) t := by
  have table : answer (l.convention.resolvePackage v.tree (v.dirOf l)) (marking (v.dirOf l) s) =
      answer (l.convention.resolvePackage v.tree (v.dirOf l)) {} :=
    l.convention.resolvePackage_steady (valid.alike_start new)
  -- A directory that was asked for is marked, and this one is not.
  have other : ∀ k ∈ past, v.dirOf k ≠ v.dirOf l := by
    intro k before same
    rw [← same, valid.marked k before] at new
    cases new
  refine ⟨?_, ?_, ?_, ?_, ?_, ?_⟩
  · intro d member
    rw [entered.packages] at member
    rcases List.mem_append.mp member with old | last
    · obtain ⟨k, before, rfl⟩ := valid.asked d old
      exact ⟨k, List.mem_append_left _ before, rfl⟩
    · exact ⟨l, by simp, List.mem_singleton.mp last⟩
  · intro k member
    rw [entered.packages, List.any_append]
    rcases List.mem_append.mp member with before | last
    · rw [valid.marked k before, Bool.true_or]
    · cases List.mem_singleton.mp last
      simp [Path.same_refl]
  · intro k member f name
    rw [entered.endpoints _ f name, table]
    rcases List.mem_append.mp member with before | last
    · rw [if_neg (other k before), Option.or_none, valid.known k before f name]
    · cases List.mem_singleton.mp last
      rw [valid.unknown _ f (fun k before => (other k before).symm) name, if_pos rfl, Option.none_or]
      rfl
  · intro d f others name
    rw [entered.endpoints d f name, if_neg (others l (by simp)), Option.or_none]
    exact valid.unknown d f (fun k before => others k (List.mem_append_left _ before)) name
  · obtain ⟨marks, names, files⟩ := entered.files
    intro p member
    rw [files] at member
    rcases List.mem_append.mp member with old | added
    · obtain ⟨k, before, found⟩ := valid.files p old
      exact ⟨k, List.mem_append_left _ before, found⟩
    · obtain ⟨n, mark, rfl⟩ := List.mem_map.mp added
      exact ⟨l, by simp, n, names n mark, rfl⟩
  · intro p f others name
    rw [entered.urls p f (others l (by simp)) name]
    exact valid.urls p f (fun k before => others k (List.mem_append_left _ before)) name

theorem Faithful.entered (valid : Faithful v past s) (consistent : Consistent v (past ++ [l])) :
    Faithful v (past ++ [l]) (v.entered l.convention (v.dirOf l) s) := by
  cases marked : s.cache.packages.any (·.same (v.dirOf l)) with
  | true =>
    rw [v.entered_old marked]
    exact valid.entered_old consistent marked
  | false => exact valid.entered_new marked (v.entered_new marked)

theorem lookUp_faithful (valid : Faithful v past s) (consistent : Consistent v (past ++ [l])) :
    Faithful v (past ++ [l]) (after (v.lookUp l) s) := by
  rw [(v.lookUp_exact l s).2]
  exact (valid.entered consistent).counting

theorem lookUp_direct (valid : Faithful v past s) (consistent : Consistent v (past ++ [l]))
    (name : Dotless l.function) : answer (v.lookUp l) s = v.direct? l := by
  rw [(v.lookUp_exact l s).1]
  exact (valid.entered consistent).known l (by simp) l.function name

theorem lookUpAll_direct (valid : Faithful v past s) (consistent : Consistent v (past ++ ls))
    (names : ∀ l ∈ ls, Dotless l.function) :
    answer (v.lookUpAll ls) s = ls.map v.direct? ∧ Faithful v (past ++ ls) (after (v.lookUpAll ls) s) := by
  induction ls generalizing past s with
  | nil =>
    rw [List.append_nil]
    exact ⟨rfl, valid⟩
  | cons l rest ih =>
    have first : Consistent v (past ++ [l]) := consistent.of_subset (by simp)
    rw [List.append_cons] at consistent
    obtain ⟨name, others⟩ := List.forall_mem_cons.mp names
    obtain ⟨answers, faithful⟩ := ih (lookUp_faithful valid first) consistent others
    unfold lookUpAll at answers faithful ⊢
    rw [answer_mapM_cons, after_mapM_cons, List.map_cons, answers,
      lookUp_direct valid first name, List.append_cons]
    exact ⟨rfl, faithful⟩

end CallAtlas.Sdk.Vendor
