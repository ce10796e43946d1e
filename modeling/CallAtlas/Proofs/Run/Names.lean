import CallAtlas.Proofs.Path.Join
import CallAtlas.Proofs.Run.Pages
import CallAtlas.Proofs.Run.Planning
import CallAtlas.Proofs.Text.Captures

namespace CallAtlas

open CallAtlas.Text

-- The first letter of a resource or data source.
def Led (s : String) : Prop := s.toList.head? = some 'r' ∨ s.toList.head? = some 'd'

theorem Led.of_first {s t : String} (led : Led s) (first : t.toList.head? = s.toList.head?) : Led t := by
  unfold Led at led ⊢
  rwa [first]

theorem isResourceFile_led {name : String} (resource : isResourceFile name = true) : Led name := by
  unfold isResourceFile at resource
  simp only [Bool.and_eq_true, Bool.or_eq_true, startsWith] at resource
  rcases resource.2 with lead | lead
  · obtain ⟨rest, whole⟩ := List.isPrefixOf_iff_prefix.mp lead
    exact .inl (by rw [← whole]; rfl)
  · obtain ⟨rest, whole⟩ := List.isPrefixOf_iff_prefix.mp lead
    exact .inr (by rw [← whole]; rfl)

theorem cutExtension_led {name : String} (led : Led name) : Led (Path.cutExtension name).1 := by
  unfold Path.cutExtension
  split
  · exact led
  · dsimp only
    split
    · exact led
    · rename_i short
      refine led.of_first ?_
      simp only [Bool.or_eq_true, List.isEmpty_iff, not_or] at short
      rw [String.toList_ofList, List.head?_take]
      split
      · rename_i none
        exact absurd (by rw [none, List.take_zero]) short.2
      · rfl

theorem resourceName_led {stem : String} (led : Led stem) : Led (Go.resourceName stem) := by
  unfold Go.resourceName
  dsimp only
  split
  · rename_i versioned
    simp only [Bool.and_eq_true] at versioned
    obtain ⟨front, whole⟩ := List.isSuffixOf_iff_suffix.mp versioned.2
    have kept : stem.toList.head? = (front ++ "_v".toList).head? := by
      rw [whole, List.head?_take]
      split
      · rename_i none
        rw [none, List.take_zero] at whole
        cases front <;> cases whole
      · rfl
    refine led.of_first ?_
    rw [String.toList_ofList, ← whole, kept]
    -- The version is not all of the stem, which begins with another letter.
    cases front with
    | nil =>
      unfold Led at led
      rw [kept] at led
      exact absurd led (by decide)
    | cons c rest => simp
  · exact led

theorem rename_led {name : String} (led : Led name) (provider : String) :
    Led (Provider.rename name provider) := by
  refine led.of_first ?_
  unfold Provider.rename replace
  rw [String.toList_ofList]
  cases text : name.toList with
  | nil => rfl
  | cons c rest =>
    -- The provider's name begins with another letter, so the first one is not replaced.
    have stays : Provider.inSources.toList.isPrefixOf (c :: rest) = false := by
      rcases led with first | first
      · rw [text] at first
        cases first
        rfl
      · rw [text] at first
        cases first
        rfl
    simp [replaceFrom, stays]

theorem cutExtension_chars {name : String} :
    ∀ c ∈ (Path.cutExtension name).1.toList, c ∈ name.toList := by
  unfold Path.cutExtension
  split
  · exact fun _ member => member
  · dsimp only
    split
    · exact fun _ member => member
    · intro c member
      rw [String.toList_ofList] at member
      exact List.mem_of_mem_take member

theorem resourceName_chars {stem : String} : ∀ c ∈ (Go.resourceName stem).toList, c ∈ stem.toList := by
  unfold Go.resourceName
  dsimp only
  split
  · intro c member
    rw [String.toList_ofList] at member
    exact List.mem_of_mem_take (List.mem_of_mem_take member)
  · exact fun _ member => member

theorem Led.append {s : String} (led : Led s) (t : String) : Led (s ++ t) := by
  refine led.of_first ?_
  rw [String.toList_append, List.head?_append]
  rcases led with first | first <;> rw [first] <;> rfl

theorem Led.first_piece {s : String} (led : Led s) :
    ∃ c rest, s.toList = c :: rest ∧ c ≠ '/' ∧ c ≠ '.' := by
  cases text : s.toList with
  | nil =>
    unfold Led at led
    rw [text] at led
    exact absurd led (by decide)
  | cons c rest =>
    refine ⟨c, rest, rfl, ?_⟩
    rcases led with first | first <;> rw [text] at first <;> cases first <;> decide

theorem Led.relative {s : String} (led : Led s) : startsWith s "/" = false := by
  obtain ⟨c, rest, text, slash, _⟩ := led.first_piece
  simpa [startsWith, text, List.isPrefixOf] using slash.symm

-- A name that does not begin with a dot has the same components wherever it stands.
theorem Led.components {s : String} (led : Led s) (first : Bool) :
    Path.componentsOf (split '/' s) first = (Path.mk s).components := by
  obtain ⟨c, rest, text, slash, dot⟩ := led.first_piece
  have pieces : ∃ piece more, split '/' s = String.ofList (c :: piece) :: more := by
    have other : (c == '/') = false := by simpa using slash
    rw [split, text, splitBy, other]
    cases splitBy (· == '/') rest with
    | nil => exact ⟨[], [], rfl⟩
    | cons piece more => exact ⟨piece, more.map String.ofList, rfl⟩
  obtain ⟨piece, more, spelled⟩ := pieces
  have here : String.ofList (c :: piece) ≠ "." := by
    intro same
    have chars := congrArg String.toList same
    rw [String.toList_ofList] at chars
    exact dot (List.cons.inj chars).1
  rw [Path.components, Path.isAbsolute, led.relative, spelled]
  simp only [Path.componentsOf, beq_iff_eq, here, Bool.false_eq_true, if_false]

namespace Run.Scan

-- The path of a document below the directory of all documents.
def publishedAs (s : Settings) (file : Path) : Path :=
  ⟨Provider.rename (resourceOf file) s.provider ++ "." ++ s.format.text⟩

theorem extension_exact (format : DocumentFormat) :
    '/' ∉ ("." ++ format.text).toList ∧ 2 < ("." ++ format.text).toList.length := by
  cases format <;> decide

theorem documentPath_components {s : Settings} {file : Path} (led : Led (resourceOf file)) :
    (s.documentPath (resourceOf file)).components =
      s.outputRoot.components ++ (publishedAs s file).components := by
  have whole : Led (publishedAs s file).text := ((rename_led led s.provider).append ".").append _
  have joined := Path.components_join s.outputRoot whole.relative
  rw [whole.components] at joined
  exact joined

-- Wherever a document is written, its name ends with the extension.
theorem documentPath_end (s : Settings) (resource : String) : ∃ parts last,
    (s.documentPath resource).components = parts ++ [.name (last ++ ("." ++ s.format.text))] := by
  obtain ⟨slashless, long⟩ := extension_exact s.format
  have ends := Path.componentsOf_end slashless long (Provider.rename resource s.provider)
  unfold Settings.documentPath
  rw [String.append_assoc]
  cases absolute : startsWith (Provider.rename resource s.provider ++ ("." ++ s.format.text)) "/" with
  | true =>
    obtain ⟨parts, last, named⟩ := ends false
    refine ⟨.root :: parts, last, ?_⟩
    rw [Path.join, if_pos absolute, Path.components, Path.isAbsolute, if_pos absolute, named, List.cons_append]
  | false =>
    obtain ⟨parts, last, named⟩ := ends (s.outputRoot.text == "")
    refine ⟨s.outputRoot.components ++ parts, last, ?_⟩
    rw [Path.components_join _ absolute, named, List.append_assoc]

example : (Settings.documentPath { basePath := ⟨"/"⟩, pendingUpgrade := [], companions := {} } "a/b") =
    ⟨"/api/a/b.yaml"⟩ := by
  decide +kernel

theorem resourceOf_slashless (file : Path) : '/' ∉ (resourceOf file).toList := by
  intro slash
  have stem := resourceName_chars '/' slash
  unfold Path.fileStem? Path.fileName? at stem
  split at stem
  · rename_i last
    exact Path.name_without_slash (List.mem_of_getLast? last) (cutExtension_chars '/' stem)
  · cases stem

-- For a provider without a slash, a document is a file directly in the directory of all documents.
theorem publishedAs_isName {s : Settings} (slashless : '/' ∉ s.provider.toList) (file : Path) :
    Path.IsName (publishedAs s file).text := by
  obtain ⟨ending, long⟩ := extension_exact s.format
  have spelled : (publishedAs s file).text.toList =
      (Provider.rename (resourceOf file) s.provider).toList ++ ("." ++ s.format.text).toList := by
    rw [← String.toList_append, ← String.append_assoc]
    rfl
  have whole_long : 2 < (publishedAs s file).text.toList.length := by
    rw [spelled, List.length_append]
    omega
  obtain ⟨filled, here, above⟩ := Path.long_ne whole_long
  refine ⟨filled, here, above, ?_⟩
  rw [spelled]
  intro slash
  rcases List.mem_append.mp slash with named | ended
  · unfold Provider.rename replace at named
    rw [String.toList_ofList] at named
    rcases replaceFrom_chars '/' named with provided | kept
    · exact slashless provided
    · exact resourceOf_slashless file kept
  · exact ending ended

theorem ofText_path {path : Path} {source : String} {file : Go.SourceFile}
    (parsed : Go.SourceFile.ofText path source = .ok file) : file.path = path := by
  unfold Go.SourceFile.ofText at parsed
  split at parsed
  · cases parsed
  · simp only [Except.ok.injEq] at parsed
    rw [← parsed]

theorem readResource_path {d : Disk} {s : Settings} {path : Path} {file : Go.SourceFile}
    (read : readResource d s path = .ok file) : file.path = path := by
  unfold readResource at read
  split at read
  · cases read
  · split at read
    · unfold Go.SourceFile.ofBody at read
      split at read
      · exact ofText_path read
      · cases read
    · split at read
      · cases read
      · exact ofText_path read

theorem readOutcome_settled (d : Disk) (s : Settings) (path : Path) :
    SkippedFile.settledPath Go.SourceFile.path (readOutcome d s path) = path := by
  unfold readOutcome
  cases read : readResource d s path with
  | ok file => exact readResource_path read
  | error e => rfl

theorem resources_accounted (d : Disk) (s : Settings) (paths : List Path) :
    ((readResources d s paths).value.1.map Go.SourceFile.path ++
      (readResources d s paths).value.2.map SkippedFile.path).Perm paths := by
  have settled := SkippedFile.settled_perm Go.SourceFile.path (paths.map (readOutcome d s))
  rw [List.map_map] at settled
  have paths_stay : SkippedFile.settledPath Go.SourceFile.path ∘ readOutcome d s = id :=
    funext (readOutcome_settled d s)
  rw [paths_stay, List.map_id] at settled
  rw [readResources_eq]
  exact settled

theorem resourceOf_led {path : Path} {name : String} (named : path.fileName? = some name)
    (resource : isResourceFile name = true) : Led (resourceOf path) := by
  unfold resourceOf Path.fileStem?
  rw [named]
  exact resourceName_led (cutExtension_led (isResourceFile_led resource))

theorem discover_resources {d : Disk} {c : Config} {schema : Schema} {found : Discovery}
    (ran : discover d c schema = .ok found) :
    ∀ path ∈ found.resources, ∃ name, path.fileName? = some name ∧ isResourceFile name = true := by
  obtain ⟨root, _, searched, _⟩ := discover_exact.mp ran
  intro path member
  have inside := (Discovery.find_accounts searched).subset (List.mem_append_left _ member)
  obtain ⟨f, candidate, rfl⟩ := List.mem_map.mp inside
  exact Discovery.candidates_named candidate

theorem plan_files {d : Disk} {c : Config} {p : Plan} (planned : (plan d c).run.value = .ok p) :
    ∀ file ∈ p.files, Led (resourceOf file.path) := by
  obtain ⟨inputs, found, _, searched, rfl⟩ := plan_exact.mp planned
  intro file member
  have path := (resources_accounted d c.settings found.resources).subset
    (List.mem_append_left _ (List.mem_map_of_mem member))
  obtain ⟨name, named, resource⟩ := discover_resources searched file.path path
  exact resourceOf_led named resource

end Run.Scan

end CallAtlas
