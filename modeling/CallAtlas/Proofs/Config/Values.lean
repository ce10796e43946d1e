import CallAtlas.Config.Resolved
import CallAtlas.Proofs.Data.SortedMap

namespace CallAtlas

namespace Setting

def Value : Setting → Type
  | .provider | .version | .host | .restPackages | .generatedPackages => String
  | .outputDir | .basePath | .sourceDir | .configFile | .hcConfigFile | .catalogFile
  | .vendorDir => Path
  | .format => DocumentFormat
  | .quiet | .comments => Bool
  | .schema => Option Path
  | .filter => Option String
  | .exclude | .skipDirs | .deprecated | .codeMarkers | .pendingUpgrade
  | .ignorePatterns => List String
  | .companions => SortedMap String String

theorem ofKey?_key (k : Setting) : ofKey? k.key = some k := by
  cases k <;> decide

theorem key_inj {k k' : Setting} (same : k.key = k'.key) : k = k' := by
  have found := ofKey?_key k
  rw [same, ofKey?_key, Option.some.injEq] at found
  exact found.symm

theorem mem_always {k : Setting} : k ∈ always ↔ k ≠ .ignorePatterns := by
  cases k <;> decide

end Setting

def Config.value (c : Config) : (k : Setting) → k.Value
  | .provider => c.settings.provider
  | .version => c.settings.version
  | .outputDir => c.settings.outputDir
  | .format => c.settings.format
  | .quiet => c.settings.quiet
  | .host => c.settings.host
  | .basePath => c.settings.basePath
  | .sourceDir => c.settings.sourceDir
  | .configFile => c.settings.configFile
  | .hcConfigFile => c.settings.hcConfigFile
  | .catalogFile => c.settings.catalogFile
  | .vendorDir => c.settings.vendorDir
  | .schema => c.settings.schema
  | .restPackages => c.settings.restPackages
  | .generatedPackages => c.settings.generatedPackages
  | .filter => c.settings.filter
  | .exclude => c.settings.exclude
  | .skipDirs => c.settings.skipDirs
  | .deprecated => c.settings.deprecated
  | .codeMarkers => c.settings.codeMarkers
  | .pendingUpgrade => c.settings.pendingUpgrade
  | .comments => c.settings.comments
  | .companions => c.settings.companions
  | .ignorePatterns => c.ignorePatterns

namespace Layer

-- The value that a layer gives to a setting. Companions are given if there are any.
def value? (l : Layer) : (k : Setting) → Option k.Value
  | .provider => l.provider
  | .version => l.version
  | .outputDir => l.outputDir
  | .format => l.format
  | .quiet => l.quiet
  | .host => l.host
  | .basePath => l.basePath
  | .sourceDir => l.sourceDir
  | .configFile => l.configFile
  | .hcConfigFile => l.hcConfigFile
  | .catalogFile => l.catalogFile
  | .vendorDir => l.vendorDir
  | .schema => l.schema.map some
  | .restPackages => l.restPackages
  | .generatedPackages => l.generatedPackages
  | .filter => l.filter.map some
  | .exclude => l.exclude
  | .skipDirs => l.skipDirs
  | .deprecated => l.deprecated
  | .codeMarkers => l.codeMarkers
  | .pendingUpgrade => l.pendingUpgrade
  | .comments => l.comments
  | .companions => if l.companions.isEmpty then none else some l.companions
  | .ignorePatterns => none

theorem sets_exact (l : Layer) (k : Setting) : l.sets k = (l.value? k).isSome := by
  cases k with
  | schema => exact (Option.isSome_map ..).symm
  | filter => exact (Option.isSome_map ..).symm
  | companions =>
    rw [sets, value?]
    cases l.companions.isEmpty <;> rfl
  | _ => rfl

end Layer

namespace Provenance

variable (p : Provenance) (source? : Setting → Option Source)

def sourceOf? (k : Setting) : Option Source := p.sources.get? k.key

theorem sourceOf?_set_self (k : Setting) (source : Source) :
    (p.set k.key source).sourceOf? k = some source :=
  p.sources.get?_insert_self k.key source

theorem sourceOf?_set_other {k other : Setting} (source : Source) (ne : k ≠ other) :
    (p.set other.key source).sourceOf? k = p.sourceOf? k :=
  p.sources.get?_insert_of_ne source fun same => ne (Setting.key_inj same)

theorem sourceOf?_mark (ks : List Setting) (k : Setting) :
    (p.mark ks source?).sourceOf? k =
      if k ∈ ks then (source? k).or (p.sourceOf? k) else p.sourceOf? k := by
  unfold mark
  induction ks generalizing p with
  | nil => rfl
  | cons j rest ih =>
    rw [List.foldl_cons, ih]
    cases given : source? j with
    | none =>
      by_cases here : k = j
      · subst here
        simp [given]
      · simp [here]
    | some source =>
      by_cases here : k = j
      · subst here
        simp [given, sourceOf?_set_self]
      · simp [here, p.sourceOf?_set_other source here]

theorem sourceOf?_markLayer (l : Layer) (k : Setting) :
    (p.markLayer l source?).sourceOf? k =
      if (l.value? k).isSome then (source? k).or (p.sourceOf? k) else p.sourceOf? k := by
  have marked : k ∈ Setting.always.filter l.sets ↔ (l.value? k).isSome = true := by
    rw [List.mem_filter, Setting.mem_always, l.sets_exact]
    constructor
    · exact And.right
    · intro given
      refine ⟨?_, given⟩
      rintro rfl
      cases given
  rw [markLayer, sourceOf?_mark]
  simp only [marked]

-- At first every setting has its default, and there are no patterns to ignore.
theorem sourceOf?_defaults (k : Setting) :
    defaults.sourceOf? k = if k = .ignorePatterns then none else some .default := by
  rw [defaults, sourceOf?_mark]
  simp only [Setting.mem_always, ne_eq, ite_not, Option.some_or]
  rfl

end Provenance

namespace Config

variable (c : Config) (l : Layer) (source? : Setting → Option Source)

theorem value_add {k : Setting} (single : k ≠ .companions) :
    (c.add l source?).value k = (l.value? k).getD (c.value k) := by
  cases k with
  | schema =>
    change l.schema.or c.settings.schema = (l.schema.map some).getD c.settings.schema
    cases l.schema <;> rfl
  | filter =>
    change l.filter.or c.settings.filter = (l.filter.map some).getD c.settings.filter
    cases l.filter <;> rfl
  | companions => exact absurd rfl single
  | _ => rfl

theorem value_add_unset {k : Setting} (unset : l.value? k = none) :
    (c.add l source?).value k = c.value k := by
  by_cases single : k = .companions
  · subst single
    have none : l.companions.entries = [] := by
      simpa [Layer.value?, SortedMap.isEmpty] using unset
    change l.companions.entries.foldl _ c.settings.companions = c.settings.companions
    rw [none]
    rfl
  · rw [c.value_add l source? single, unset]
    rfl

theorem source_add_unset {k : Setting} (unset : l.value? k = none) :
    (c.add l source?).provenance.sourceOf? k = c.provenance.sourceOf? k := by
  change (c.provenance.markLayer l source?).sourceOf? k = _
  rw [Provenance.sourceOf?_markLayer, unset]
  rfl

end Config

end CallAtlas
