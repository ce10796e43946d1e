import CallAtlas.Proofs.Config.Values
import CallAtlas.Proofs.Run.Outcomes

namespace CallAtlas

namespace LayerFile

-- Where a base path leads: from the directory of its file, if that counts.
def seenFrom (dir : Option Path) (p : Path) : Path :=
  match dir with
  | some dir => dir.join p.text
  | none => p

-- A format is given by the name of one in any case, and exclusions by a list that is not empty.
def gives (f : LayerFile) (dir : Option Path) : (k : Setting) → Option k.Value
  | .format => f.formatName.bind fun name =>
    if name.toLower = "yaml" then some .yaml
    else if name.toLower = "json" then some .json
    else none
  | .exclude => f.layer.exclude.bind fun patterns => if patterns = [] then none else some patterns
  | .basePath => f.layer.basePath.map (seenFrom dir)
  | k => f.layer.value? k

theorem formatOf?_exact (name : String) :
    formatOf? name =
      if name.toLower = "yaml" then some .yaml
      else if name.toLower = "json" then some .json
      else none := by
  unfold formatOf?
  by_cases yaml : name.toLower = "yaml"
  · simp [yaml, DocumentFormat.text]
  · by_cases json : name.toLower = "json"
    · simp [json, DocumentFormat.text]
    · simp [yaml, json, Ne.symm yaml, Ne.symm json, DocumentFormat.text]

theorem settle_value (f : LayerFile) (source : Source) (dir : Option Path) :
    (f.settle source dir).value =
      { f.layer with
        format := f.formatName.bind formatOf?
        basePath := f.layer.basePath.map (seenFrom dir)
        exclude := f.layer.exclude.filter (!·.isEmpty) } := by
  have base : (match dir with
      | some dir => f.layer.basePath.map fun p => dir.join p.text
      | none => f.layer.basePath) = f.layer.basePath.map (seenFrom dir) := by
    cases dir with
    | some dir => rfl
    | none => exact (Option.map_id' ..).symm
  unfold settle
  rw [← base]
  cases f.formatName with
  | none => rfl
  | some name =>
    cases known : formatOf? name <;> simp only [Option.bind_some, known] <;> rfl

theorem settle_gives (f : LayerFile) (source : Source) (dir : Option Path) (k : Setting) :
    (f.settle source dir).value.value? k = f.gives dir k := by
  rw [settle_value]
  cases k with
  | format =>
    change f.formatName.bind formatOf? = f.formatName.bind _
    exact congrArg _ (funext formatOf?_exact)
  | exclude =>
    change f.layer.exclude.filter (!·.isEmpty) = f.layer.exclude.bind _
    cases f.layer.exclude with
    | none => rfl
    | some patterns => cases patterns <;> rfl
  | _ => rfl

end LayerFile

namespace Flags

-- Quiet is given if it is asked for, and exclusions if there are any.
def gives (f : Flags) : (k : Setting) → Option k.Value
  | .basePath => f.basePath
  | .outputDir => f.outputDir
  | .provider => f.provider
  | .version => f.version
  | .schema => f.schema.map some
  | .filter => f.filter.map some
  | .exclude => if f.exclude = [] then none else some f.exclude
  | .format => f.format
  | .quiet => if f.quiet then some true else none
  | _ => none

theorem layer_gives (f : Flags) (k : Setting) : f.layer.value? k = f.gives k := by
  cases k with
  | exclude =>
    change (some f.exclude).filter (!·.isEmpty) = if f.exclude = [] then none else some f.exclude
    cases f.exclude <;> rfl
  | quiet =>
    change (some f.quiet).filter (·) = if f.quiet then some true else none
    cases f.quiet <;> rfl
  | _ => rfl

def sourceOf (k : Setting) : Source := .flag (k.flag?.getD "")

theorem gives_flagged {f : Flags} {k : Setting} (given : (f.gives k).isSome = true) :
    k.flag?.map Source.flag = some (sourceOf k) := by
  cases k with
  | basePath | outputDir | provider | version | schema | filter | exclude | format | quiet => rfl
  | _ => cases given

end Flags

namespace LayerFile

variable {f : LayerFile} {v : Toml.Value}

-- Of a file that has been read so far, what is read next leaves the companions as they are.
def Keeps (f : LayerFile) (next : Option LayerFile) : Prop :=
  ∀ g, next = some g → g.layer.companions = f.layer.companions

theorem Keeps.fault : Keeps f none := by
  intro g made
  cases made

theorem Keeps.made {g : LayerFile} (same : g.layer.companions = f.layer.companions) :
    Keeps f (some g) := by
  intro g' made
  cases made
  exact same

theorem Keeps.bind {o : Option α} {next : α → Option LayerFile} (each : ∀ a, Keeps f (next a)) :
    Keeps f (o >>= next) := by
  intro g made
  obtain ⟨a, _, made⟩ := Option.bind_eq_some_iff.mp made
  exact each a g made

theorem readDefaults?_keeps : Keeps f (f.readDefaults? v) := by
  refine .bind fun fields => ?_
  split
  · exact .bind fun _ => .bind fun _ => .bind fun _ => .bind fun _ => .bind fun _ => .bind fun _ =>
      .made rfl
  · exact .fault

theorem readPaths?_keeps : Keeps f (f.readPaths? v) := by
  refine .bind fun fields => ?_
  split
  · exact .bind fun _ => .bind fun _ => .bind fun _ => .bind fun _ => .bind fun _ => .bind fun _ =>
      .bind fun _ => .made rfl
  · exact .fault

theorem readSdk?_keeps : Keeps f (f.readSdk? v) := by
  refine .bind fun fields => ?_
  split
  · exact .bind fun _ => .bind fun _ => .made rfl
  · exact .fault

theorem readTargeting?_keeps : Keeps f (f.readTargeting? v) := by
  refine .bind fun fields => ?_
  split
  · exact .bind fun _ => .bind fun _ => .bind fun _ => .bind fun _ => .bind fun _ => .bind fun _ =>
      .bind fun _ => .made rfl
  · exact .fault

theorem readCompanions?_sorted {g : LayerFile} (read : f.readCompanions? v = some g) :
    g.layer.companions.Sorted := by
  obtain ⟨companions, mapped, made⟩ := Option.bind_eq_some_iff.mp read
  cases made
  obtain ⟨_, _, mapped⟩ := Option.bind_eq_some_iff.mp mapped
  obtain ⟨entries, _, mapped⟩ := Option.bind_eq_some_iff.mp mapped
  cases mapped
  exact SortedMap.sorted_empty.foldl_insert entries

theorem readSection?_sorted {entry : String × Toml.Value} {g : LayerFile}
    (sorted : f.layer.companions.Sorted) (read : f.readSection? entry = some g) :
    g.layer.companions.Sorted := by
  have keeps {next : Option LayerFile} (kept : Keeps f next) (made : next = some g) :
      g.layer.companions.Sorted := by rwa [kept g made]
  unfold readSection? at read
  split at read
  · exact keeps readDefaults?_keeps read
  · exact keeps readPaths?_keeps read
  · exact keeps readSdk?_keeps read
  · exact keeps readTargeting?_keeps read
  · exact readCompanions?_sorted read
  · cases read

theorem readSections_sorted {sections : List (String × Toml.Value)} {g : LayerFile}
    (sorted : f.layer.companions.Sorted) (read : sections.foldlM readSection? f = some g) :
    g.layer.companions.Sorted := by
  induction sections generalizing f with
  | nil =>
    cases read
    exact sorted
  | cons entry rest ih =>
    rw [List.foldlM_cons] at read
    obtain ⟨next, one, read⟩ := Option.bind_eq_some_iff.mp read
    exact ih (readSection?_sorted sorted one) read

theorem read?_sorted {content : String} (read : LayerFile.read? content = some f) :
    f.layer.companions.Sorted := by
  obtain ⟨document, _, read⟩ := Option.bind_eq_some_iff.mp read
  obtain ⟨sections, _, read⟩ := Option.bind_eq_some_iff.mp read
  exact readSections_sorted SortedMap.sorted_empty read

end LayerFile

theorem Config.readFile_sorted {disk : Disk} {path : Path} {layer : String} {file : LayerFile}
    (read : readFile disk path layer = .ok file) : file.layer.companions.Sorted := by
  unfold readFile at read
  split at read
  · cases read
  · split at read
    · cases read
    · rename_i parsed
      cases read
      exact LayerFile.read?_sorted parsed

-- What a layer gives, and how it is named as a source.
structure Stratum where
  gives : (k : Setting) → Option k.Value
  source : Setting → Source

namespace Stratum

def ofFlags (f : Flags) : Stratum := ⟨f.gives, Flags.sourceOf⟩

def ofProject (file : Path × LayerFile) : Stratum :=
  ⟨file.2.gives file.1.parent?, fun _ => .projectFile file.1⟩

def ofUser (file : Path × LayerFile) : Stratum := ⟨file.2.gives none, fun _ => .userFile file.1⟩

-- The strata of a configuration, the highest first.
def strata (flags : Flags) (project user : Option (Path × LayerFile)) : List Stratum :=
  ofFlags flags :: ((project.map ofProject).toList ++ (user.map ofUser).toList)

def companion? (t : Stratum) (name : String) : Option String :=
  (t.gives .companions).bind fun (m : SortedMap String String) => m.get? name

-- The highest stratum that gives a value to a setting.
def top? (strata : List Stratum) (k : Setting) : Option Stratum :=
  strata.find? fun t => (t.gives k).isSome

theorem top?_cons_given {t : Stratum} {k : Setting} (given : (t.gives k).isSome = true)
    (strata : List Stratum) : top? (t :: strata) k = some t := by
  simp [top?, given]

theorem top?_cons_unset {t : Stratum} {k : Setting} (unset : t.gives k = none)
    (strata : List Stratum) : top? (t :: strata) k = top? strata k := by
  simp [top?, unset]

end Stratum

namespace Config

open Stratum

-- A setting has the value of the highest stratum that gives one, else its default, and its source is
-- that stratum. Companions of all strata count, the higher before the lower. The patterns of an
-- ignore file have a source if there is such a file.
structure Layered (workingDir : Path) (strata : List Stratum) (ignored : IgnoreFile) (c : Config) :
    Prop where
  values : ∀ k, k ≠ .companions → k ≠ .ignorePatterns →
    c.value k = ((top? strata k).bind (·.gives k)).getD ((initial workingDir).value k)
  companions : ∀ name, c.settings.companions.get? name =
    (strata.findSome? (·.companion? name)).or (usualCompanions.get? name)
  sources : ∀ k, k ≠ .ignorePatterns →
    c.provenance.sourceOf? k = some (((top? strata k).map (·.source k)).getD .default)
  patterns : c.ignorePatterns = ignored.patterns
  ignoreSource : c.provenance.sourceOf? .ignorePatterns = ignored.path.map .ignoreFile

theorem layered_initial (workingDir : Path) : (initial workingDir).Layered workingDir [] {} where
  values _ _ _ := rfl
  companions _ := rfl
  sources k marked := (Provenance.sourceOf?_defaults k).trans (if_neg marked)
  patterns := rfl
  ignoreSource := Provenance.sourceOf?_defaults .ignorePatterns

variable {workingDir : Path} {strata : List Stratum} {ignored : IgnoreFile} {c : Config}

-- A layer becomes the highest stratum.
theorem Layered.add (below : Layered workingDir strata ignored c) {t : Stratum} {l : Layer}
    {source? : Setting → Option Source} (gives : ∀ k, l.value? k = t.gives k)
    (named : ∀ k, (t.gives k).isSome = true → source? k = some (t.source k))
    (sorted : l.companions.Sorted) :
    Layered workingDir (t :: strata) ignored (c.add l source?) where
  values k single other := by
    rw [c.value_add l source? single, gives, below.values k single other]
    cases given : t.gives k with
    | none => rw [top?_cons_unset given]; rfl
    | some value =>
      rw [top?_cons_given (by rw [given]; rfl), Option.bind_some, given]
      rfl
  companions name := by
    have given : t.companion? name = l.companions.get? name := by
      unfold companion?
      rw [← gives]
      change (if l.companions.isEmpty then none else some l.companions).bind _ = _
      cases empty : l.companions.isEmpty with
      | false => rfl
      | true =>
        have none : l.companions.entries = [] := List.isEmpty_iff.mp empty
        simp [SortedMap.get?, none]
    change (l.companions.entries.foldl (fun m e => m.insert e.1 e.2) c.settings.companions).get? name = _
    rw [SortedMap.get?_foldl_insert sorted.keys_nodup, below.companions, List.findSome?_cons, given]
    cases l.companions.get? name <;> rfl
  sources k marked := by
    change (c.provenance.markLayer l source?).sourceOf? k = _
    rw [Provenance.sourceOf?_markLayer, gives]
    cases given : t.gives k with
    | none => rw [top?_cons_unset given, ← below.sources k marked]; rfl
    | some value =>
      have some_given : (t.gives k).isSome = true := by rw [given]; rfl
      rw [top?_cons_given some_given, named k some_given]
      rfl
  patterns := below.patterns
  ignoreSource := by
    rw [c.source_add_unset l source? rfl]
    exact below.ignoreSource

theorem Layered.loaded (layered : Layered workingDir strata ignored c) (files : List Path) :
    Layered workingDir strata ignored { c with loadedFiles := files } where
  values k single other := by
    rw [← layered.values k single other]
    cases k <;> rfl
  companions := layered.companions
  sources := layered.sources
  patterns := layered.patterns
  ignoreSource := layered.ignoreSource

theorem Layered.ignoring (layered : Layered workingDir strata {} c) {f : IgnoreFile}
    (absent : f.path = none → f.patterns = []) :
    Layered workingDir strata f (c.addIgnoreFile f) := by
  unfold addIgnoreFile
  cases found : f.path with
  | none =>
    exact { layered with
      patterns := by rw [absent found]; exact layered.patterns
      ignoreSource := by rw [found]; exact layered.ignoreSource }
  | some path =>
    exact {
      values := by
        intro k single other
        rw [← layered.values k single other]
        cases k with
        | ignorePatterns => exact absurd rfl other
        | _ => rfl
      companions := layered.companions
      sources := by
        intro k marked
        rw [← layered.sources k marked]
        exact c.provenance.sourceOf?_set_other (.ignoreFile path) marked
      patterns := rfl
      ignoreSource := by
        rw [found]
        exact c.provenance.sourceOf?_set_self .ignorePatterns (.ignoreFile path) }

-- The user's file, if it is there.
def userFile? (disk : Disk) (home : Option Path) : Option Path :=
  (home.map userFile).filter disk.contains

-- A settings file that is there, with what is read from it.
def fileAt (disk : Disk) (layer : String) : Option Path → Except Failure (Option (Path × LayerFile))
  | none => .ok none
  | some path => (readFile disk path layer).map fun file => some (path, file)

theorem fileAt_exact {disk : Disk} {layer : String} {path? : Option Path}
    {found : Option (Path × LayerFile)} (read : fileAt disk layer path? = .ok found) :
    (path? = none ∧ found = none) ∨
      ∃ path file, path? = some path ∧ found = some (path, file) ∧
        readFile disk path layer = .ok file := by
  cases path? with
  | none =>
    cases read
    exact .inl ⟨rfl, rfl⟩
  | some path =>
    cases given : readFile disk path layer with
    | error e => rw [fileAt, given] at read; cases read
    | ok file =>
      rw [fileAt, given] at read
      cases read
      exact .inr ⟨path, file, rfl, rfl, given⟩

theorem addFile_layered (below : Layered workingDir strata ignored c) {disk : Disk} {path : Path}
    {layer : String} {file : LayerFile} (read : readFile disk path layer = .ok file)
    (source : Source) (dir : Option Path) :
    ∃ c', (c.addFile disk path layer source dir).run.value = .ok c' ∧
      Layered workingDir (⟨file.gives dir, fun _ => source⟩ :: strata) ignored c' := by
  have sorted : (file.settle source dir).value.companions.Sorted := by
    rw [file.settle_value]
    exact readFile_sorted read
  have first : (liftM (readFile disk path layer) : Attempt LayerFile).run.value = .ok file := by
    rw [read]
    rfl
  refine ⟨_, Attempt.run_bind_ok first, ?_⟩
  exact (below.add (file.settle_gives source dir) (fun _ _ => rfl) sorted).loaded _

theorem addUserFile_layered {disk : Disk} {home : Option Path} {user : Option (Path × LayerFile)}
    (read : fileAt disk "user" (userFile? disk home) = .ok user)
    (below : Layered workingDir [] ignored c) :
    ∃ c', (c.addUserFile disk home).run.value = .ok c' ∧
      Layered workingDir (user.map ofUser).toList ignored c' := by
  unfold addUserFile
  unfold userFile? at read
  rcases fileAt_exact read with ⟨absent, rfl⟩ | ⟨path, file, there, rfl, parsed⟩
  · cases named : home.map userFile with
    | none => exact ⟨c, rfl, below⟩
    | some path =>
      rw [named, Option.filter_some] at absent
      cases present : disk.contains path with
      | true => rw [present] at absent; cases absent
      | false => exact ⟨c, by simp only [present]; rfl, below⟩
  · obtain ⟨path_is, present⟩ := Option.filter_eq_some_iff.mp there
    rw [path_is]
    dsimp only
    rw [if_pos present]
    exact addFile_layered below parsed (.userFile path) none

theorem addProjectFile_layered {disk : Disk} {project : Option (Path × LayerFile)}
    (read : fileAt disk "project" (projectFile? disk workingDir) = .ok project)
    (below : Layered workingDir strata ignored c) :
    ∃ c', (c.addProjectFile disk workingDir).run.value = .ok c' ∧
      Layered workingDir ((project.map ofProject).toList ++ strata) ignored c' := by
  unfold addProjectFile
  rcases fileAt_exact read with ⟨absent, rfl⟩ | ⟨path, file, there, rfl, parsed⟩
  · rw [absent]
    exact ⟨c, rfl, below⟩
  · rw [there]
    exact addFile_layered below parsed (.projectFile path) path.parent?

theorem addFlags_layered (below : Layered workingDir strata ignored c) (flags : Flags) :
    Layered workingDir (ofFlags flags :: strata) ignored (c.addFlags flags.layer) :=
  below.add flags.layer_gives (fun _ => Flags.gives_flagged) SortedMap.sorted_empty

theorem ignoreFile_absent (disk : Disk) (start : Path)
    (absent : (IgnoreFile.find disk start).value.path = none) :
    (IgnoreFile.find disk start).value.patterns = [] := by
  unfold IgnoreFile.find at absent ⊢
  split at absent
  · rfl
  · split at absent
    · cases absent
    · rfl

-- Whatever settings files there are, if they can be read, and whatever the command line sets. What a
-- layer does not give it leaves alone.
theorem resolve_layered {disk : Disk} {home : Option Path} (workingDir : Path) (flags : Flags)
    {user project : Option (Path × LayerFile)}
    (userRead : fileAt disk "user" (userFile? disk home) = .ok user)
    (projectRead : fileAt disk "project" (projectFile? disk workingDir) = .ok project) :
    (∃ c, (resolve disk home workingDir flags.layer).run.value = .ok c ∧
        c.Layered workingDir (Stratum.strata flags project user)
          (IgnoreFile.find disk workingDir).value) ∧
      ∀ (c : Config) (l : Layer) (source? : Setting → Option Source) (k : Setting),
        l.value? k = none → (c.add l source?).value k = c.value k ∧
          (c.add l source?).provenance.sourceOf? k = c.provenance.sourceOf? k := by
  refine ⟨?_, ?_⟩
  · obtain ⟨first, added, below⟩ := addUserFile_layered userRead (layered_initial workingDir)
    obtain ⟨second, more, layered⟩ := addProjectFile_layered projectRead below
    refine ⟨(second.addFlags flags.layer).addIgnoreFile (IgnoreFile.find disk workingDir).value, ?_, ?_⟩
    · unfold resolve
      rw [Attempt.run_bind_ok added, Attempt.run_bind_ok more]
      rfl
    · exact (addFlags_layered layered flags).ignoring (ignoreFile_absent disk workingDir)
  · intro c l source? k unset
    exact ⟨c.value_add_unset l source? unset, c.source_add_unset l source? unset⟩

theorem fileAt_text {disk : Disk} {path : Path} {layer text : String} {file : LayerFile}
    (found : (disk.read? path).bind Body.text? = some text)
    (read : LayerFile.read? text = some file) :
    fileAt disk layer (some path) = .ok (some (path, file)) := by
  have parsed : readFile disk path layer = .ok file := by
    simp only [readFile, found, read]
  rw [fileAt, parsed]
  rfl

def userText : String := "[defaults]\nversion=\"1\"\nhost=\"h\"\nformat=\"JSON\""

def projectText : String := "[defaults]\nversion=\"2\"\n[paths]\nbase_path=\"src\""

def desk : Disk where
  entries :=
    [(["h"], .dir), (["h", "apiscan"], .dir),
     (["h", "apiscan", "config.toml"], .file (.text userText)), (["w"], .dir),
     (["w", ".apiscan.toml"], .file (.text projectText)),
     (["w", ".apiscanignore"], .file (.text "obs/"))]

def deskFlags : Flags := { provider := some "p" }

theorem resolve_layered_desk :
    ∃ u p c, fileAt desk "user" (userFile? desk (some ⟨"/h"⟩)) = .ok (some u) ∧
      fileAt desk "project" (projectFile? desk ⟨"/w"⟩) = .ok (some p) ∧
      (resolve desk (some ⟨"/h"⟩) ⟨"/w"⟩ deskFlags.layer).run.value = .ok c ∧
      c.Layered ⟨"/w"⟩ (Stratum.strata deskFlags (some p) (some u)) (IgnoreFile.find desk ⟨"/w"⟩).value := by
  have userParsed : (LayerFile.read? userText).isSome = true := by decide +kernel
  have projectParsed : (LayerFile.read? projectText).isSome = true := by decide +kernel
  obtain ⟨u, userParsed⟩ := Option.isSome_iff_exists.mp userParsed
  obtain ⟨p, projectParsed⟩ := Option.isSome_iff_exists.mp projectParsed
  have userPath : userFile? desk (some ⟨"/h"⟩) = some ⟨"/h/apiscan/config.toml"⟩ := by decide +kernel
  have projectPath : projectFile? desk ⟨"/w"⟩ = some ⟨"/w/.apiscan.toml"⟩ := by decide +kernel
  have userRead : fileAt desk "user" (userFile? desk (some ⟨"/h"⟩)) =
      .ok (some (⟨"/h/apiscan/config.toml"⟩, u)) := by
    rw [userPath]
    exact fileAt_text (by decide +kernel) userParsed
  have projectRead : fileAt desk "project" (projectFile? desk ⟨"/w"⟩) =
      .ok (some (⟨"/w/.apiscan.toml"⟩, p)) := by
    rw [projectPath]
    exact fileAt_text (by decide +kernel) projectParsed
  obtain ⟨⟨c, resolved, layered⟩, _⟩ := resolve_layered ⟨"/w"⟩ deskFlags userRead projectRead
  exact ⟨_, _, c, userRead, projectRead, resolved, layered⟩

end Config

end CallAtlas
