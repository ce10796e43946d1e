import CallAtlas.Proofs.Go.ResourceNames
import CallAtlas.Proofs.Json.Records
import CallAtlas.Proofs.Text.Spans
import CallAtlas.Schema

namespace CallAtlas.Schema

open CallAtlas.Text CallAtlas.Json CallAtlas.Json.Value

def Marked (block : Value) : Prop := ∃ mark, Has block 0 "deprecated" mark ∧ mark ≠ .null

def Deprecated (type : Value) : Prop := ∃ block, Has type 0 "block" block ∧ Marked block

inductive Kind where
  | resource
  | dataSource
  deriving DecidableEq

namespace Kind

def lead : Kind → String
  | resource => "resource_"
  | dataSource => "data_source_"

def place : Kind → Nat
  | resource => 0
  | dataSource => 1

def field : Kind → String
  | resource => "resource_schemas"
  | dataSource => "data_source_schemas"

def names {α : Type} : Kind → α × α → α
  | resource, pair => pair.1
  | dataSource, pair => pair.2

theorem names_flatMap {α : Type} (kind : Kind) (chosen : List (List α × List α)) :
    kind.names (chosen.flatMap (·.1), chosen.flatMap (·.2)) = chosen.flatMap fun pair => kind.names pair := by
  cases kind <;> rfl

end Kind

-- A type of a map that is not deprecated.
def Current (types : Value) (type : String) : Prop := ∃ t, types.Entry type t ∧ ¬ Deprecated t

-- A provider whose address contains the given name has a type of a kind, and the type is not deprecated.
def Listed (dump : Value) (provider : String) (kind : Kind) (type : String) : Prop :=
  ∃ providers address entry types, Has dump 0 "provider_schemas" providers ∧ providers.Entry address entry ∧
    provider.toList <:+: address.toList ∧ Has entry kind.place kind.field types ∧ Current types type

def IsBlock (block : Value) : Prop :=
  IsRecord ["deprecated"] block ∧
    ∀ mark, Has block 0 "deprecated" mark → mark = .null ∨ mark.fits markRoom = true

def IsType (type : Value) : Prop :=
  IsRecord ["block"] type ∧ ∀ block, Has type 0 "block" block → IsBlock block

def IsEntry (entry : Value) : Prop :=
  IsRecord ["resource_schemas", "data_source_schemas"] entry ∧
    ∀ (kind : Kind) types, Has entry kind.place kind.field types → IsMap IsType types

def IsDump (dump : Value) : Prop :=
  IsRecord ["provider_schemas"] dump ∧
    ∀ providers, Has dump 0 "provider_schemas" providers → IsMap IsEntry providers

theorem deprecatedBlock?_exact {block : Value} {b : Bool} :
    deprecatedBlock? block = some b ↔ IsBlock block ∧ (b = true ↔ Marked block) := by
  rcases record?_one block "deprecated" with ⟨other, nothing⟩ | ⟨shape, mark?, read, field⟩
  · rw [deprecatedBlock?, nothing]
    exact ⟨nofun, fun given => absurd given.1.1 other⟩
  · have known : IsBlock block ↔ ∀ mark, mark? = some mark → mark = .null ∨ mark.fits markRoom = true := by
      simp only [IsBlock, shape, true_and, field]
    have marked : Marked block ↔ ∃ mark, mark? = some mark ∧ mark ≠ .null := by simp only [Marked, field]
    cases mark? with
    | none =>
      have value : deprecatedBlock? block = some false := by rw [deprecatedBlock?, read]; rfl
      rw [value, known, marked]
      cases b <;> simp
    | some mark =>
      by_cases null : mark = .null
      · subst null
        have value : deprecatedBlock? block = some false := by rw [deprecatedBlock?, read]; rfl
        rw [value, known, marked]
        cases b <;> simp
      · have value : deprecatedBlock? block = if mark.fits markRoom then some true else none := by
          rw [deprecatedBlock?, read]
          cases mark with
          | null => exact absurd rfl null
          | _ => rfl
        rw [value, known, marked]
        by_cases fits : mark.fits markRoom = true <;> cases b <;> simp [null, fits]

theorem deprecatedType?_exact {type : Value} {b : Bool} :
    deprecatedType? type = some b ↔ IsType type ∧ (b = true ↔ Deprecated type) := by
  rcases record?_one type "block" with ⟨other, nothing⟩ | ⟨shape, block?, read, field⟩
  · rw [deprecatedType?, nothing]
    exact ⟨nofun, fun given => absurd given.1.1 other⟩
  · have known : IsType type ↔ ∀ block, block? = some block → IsBlock block := by
      simp only [IsType, shape, true_and, field]
    have marked : Deprecated type ↔ ∃ block, block? = some block ∧ Marked block := by simp only [Deprecated, field]
    rw [known, marked, deprecatedType?, read]
    cases block? with
    | none =>
      have value : Readable.withDefault false deprecatedBlock? none = some false := rfl
      cases b <;> simp [value]
    | some block =>
      have value : Readable.withDefault false deprecatedBlock? (some block) = deprecatedBlock? block := rfl
      simp [value, deprecatedBlock?_exact]

theorem deprecatedType?_isSome {type : Value} : (deprecatedType? type).isSome = true ↔ IsType type := by
  simp only [Option.isSome_iff_exists, deprecatedType?_exact]
  refine ⟨fun ⟨_, known, _⟩ => known, fun known => ?_⟩
  by_cases deprecated : Deprecated type
  · exact ⟨true, known, iff_of_true rfl deprecated⟩
  · exact ⟨false, known, iff_of_false Bool.false_ne_true deprecated⟩

theorem exportedTypes?_isSome {types : Value} : (exportedTypes? types).isSome = true ↔ IsMap IsType types := by
  have read : (exportedTypes? types).isSome = (Readable.map? deprecatedType? types).isSome := by
    unfold exportedTypes?
    cases Readable.map? deprecatedType? types <;> rfl
  rw [read, map?_isSome]
  simp only [deprecatedType?_isSome]

theorem exportedTypes?_mem {types : Value} {names : List String} (read : exportedTypes? types = some names)
    {name : String} : name ∈ names ↔ ∃ type, Current types type ∧ Unversioned type name := by
  obtain ⟨marks, marked, made⟩ := Option.bind_eq_some_iff.mp read
  cases made
  have shape : IsMap IsType types := exportedTypes?_isSome.mp (Option.isSome_of_mem read)
  have entry : ∀ type, (type, false) ∈ marks.entries ↔ Current types type := by
    intro type
    rw [map?_entry marked]
    refine exists_congr fun t => and_congr_right fun entry => ?_
    rw [deprecatedType?_exact, Bool.false_eq_true, false_iff]
    exact and_iff_right (shape.entry entry)
  simp only [List.mem_map, List.mem_filter, Bool.not_eq_true', Prod.exists, ← Go.resourceName_iff, ← entry]
  constructor
  · rintro ⟨type, _, ⟨member, rfl⟩, named⟩
    exact ⟨type, member, named⟩
  · rintro ⟨type, member, named⟩
    exact ⟨type, false, ⟨member, rfl⟩, named⟩

theorem withDefault_types {types? : Option Value} :
    (Readable.withDefault [] exportedTypes? types?).isSome = true ↔ ∀ types, types? = some types → IsMap IsType types := by
  cases types? with
  | none => exact ⟨fun _ => nofun, fun _ => rfl⟩
  | some types =>
    change (exportedTypes? types).isSome = true ↔ _
    simp [exportedTypes?_isSome]

theorem withDefault_names {types? : Option Value} {names : List String}
    (read : Readable.withDefault [] exportedTypes? types? = some names) {name : String} :
    name ∈ names ↔ ∃ types type, types? = some types ∧ Current types type ∧ Unversioned type name := by
  cases types? with
  | none =>
    cases read
    simp
  | some types =>
    rw [exportedTypes?_mem read]
    simp

theorem entry_isSome {entry : Value} : ( exportedEntry? entry).isSome = true ↔ IsEntry entry := by
  rcases record?_two entry "resource_schemas" "data_source_schemas" with
    ⟨other, nothing⟩ | ⟨shape, resources?, dataSources?, read, resources, dataSources⟩
  · rw [ exportedEntry?, nothing]
    exact ⟨nofun, fun given => absurd given.1 other⟩
  · have kinds : IsEntry entry ↔ (∀ types, resources? = some types → IsMap IsType types) ∧
        ∀ types, dataSources? = some types → IsMap IsType types := by
      simp only [resources, dataSources]
      refine ⟨fun given => ⟨given.2 .resource, given.2 .dataSource⟩, fun given => ⟨shape, fun kind => ?_⟩⟩
      cases kind with
      | resource => exact given.1
      | dataSource => exact given.2
    rw [kinds, ← withDefault_types, ← withDefault_types, exportedEntry?, read]
    dsimp only [Option.bind_eq_bind, Option.bind_some]
    cases Readable.withDefault [] exportedTypes? resources? <;>
      cases Readable.withDefault [] exportedTypes? dataSources? <;> simp

theorem entry_mem {entry : Value} {pair : List String × List String} (read : exportedEntry? entry = some pair)
    {kind : Kind} {name : String} :
    name ∈ kind.names pair ↔
      ∃ types type, Has entry kind.place kind.field types ∧ Current types type ∧ Unversioned type name := by
  rcases record?_two entry "resource_schemas" "data_source_schemas" with
    ⟨other, nothing⟩ | ⟨shape, resources?, dataSources?, found, resources, dataSources⟩
  · rw [ exportedEntry?, nothing] at read
    cases read
  · rw [ exportedEntry?, found] at read
    dsimp only [Option.bind_eq_bind, Option.bind_some] at read
    obtain ⟨first, left, read⟩ := Option.bind_eq_some_iff.mp read
    obtain ⟨second, right, read⟩ := Option.bind_eq_some_iff.mp read
    cases read
    cases kind with
    | resource =>
      rw [Kind.names, withDefault_names left]
      simp only [resources]
      rfl
    | dataSource =>
      rw [Kind.names, withDefault_names right]
      simp only [dataSources]
      rfl

theorem dump?_isSome {dump : Value} : (dump? dump).isSome = true ↔ IsDump dump := by
  rcases record?_one dump "provider_schemas" with ⟨other, nothing⟩ | ⟨shape, providers?, read, field⟩
  · rw [dump?, nothing]
    exact ⟨nofun, fun given => absurd given.1 other⟩
  · have known : IsDump dump ↔ ∀ providers, providers? = some providers → IsMap IsEntry providers := by
      simp only [IsDump, shape, true_and, field]
    rw [known, dump?, read]
    cases providers? with
    | none => exact ⟨fun _ => nofun, fun _ => rfl⟩
    | some providers =>
      change (Readable.map? exportedEntry? providers).isSome = true ↔ _
      simp [map?_isSome, entry_isSome]

theorem dump?_mem {dump : Value} {providers : SortedMap String (List String × List String)}
    (read : dump? dump = some providers) {address : String} {pair : List String × List String} :
    (address, pair) ∈ providers.entries ↔
      ∃ given entry, Has dump 0 "provider_schemas" given ∧ given.Entry address entry ∧ exportedEntry? entry = some pair := by
  rcases record?_one dump "provider_schemas" with ⟨other, nothing⟩ | ⟨shape, providers?, found, field⟩
  · rw [dump?, nothing] at read
    cases read
  · rw [dump?, found] at read
    simp only [← field]
    cases providers? with
    | none =>
      cases read
      simp
    | some given =>
      rw [map?_entry read]
      simp

variable {content provider : String} {dump : Value} {s : Schema}

theorem ofJson_read (parsed : Json.read? content = some dump) (shape : IsDump dump) :
    ∃ s, ofJson content provider = .ok s := by
  obtain ⟨providers, read⟩ := Option.isSome_iff_exists.mp (dump?_isSome.mpr shape)
  have whole : Json.read? content >>= dump? = some providers := by rw [parsed]; exact read
  rw [ofJson, whole]
  exact ⟨_, rfl⟩

theorem ofJson_provider (read : ofJson content provider = .ok s) : s.provider = provider := by
  unfold ofJson at read
  split at read
  · cases read
  · cases read
    rfl

theorem ofJson_names (parsed : Json.read? content = some dump) (read : ofJson content provider = .ok s)
    (kind : Kind) (name : String) :
    name ∈ kind.names (s.resources, s.dataSources) ↔ ∃ type, Listed dump provider kind type ∧ Unversioned type name := by
  unfold ofJson at read
  rw [parsed] at read
  split at read
  · cases read
  · rename_i providers known
    cases read
    have shape : IsDump dump := dump?_isSome.mp (Option.isSome_of_mem known)
    change name ∈ kind.names (List.flatMap _ _, List.flatMap _ _) ↔ _
    rw [Kind.names_flatMap]
    simp only [List.mem_flatMap, List.mem_map, List.mem_filter, contains, occursIn_iff]
    constructor
    · rintro ⟨_, ⟨⟨address, pair⟩, ⟨member, covers⟩, rfl⟩, among⟩
      obtain ⟨given, entry, has, inside, exported⟩ := (dump?_mem known).mp member
      obtain ⟨types, type, held, current, named⟩ := (entry_mem exported).mp among
      exact ⟨type, ⟨given, address, entry, types, has, inside, covers, held, current⟩, named⟩
    · rintro ⟨type, ⟨given, address, entry, types, has, inside, covers, held, current⟩, named⟩
      obtain ⟨pair, exported⟩ := Option.isSome_iff_exists.mp
        (entry_isSome.mpr ((shape.2 given has).entry inside))
      have member := (dump?_mem known).mpr ⟨given, entry, has, inside, exported⟩
      refine ⟨pair, ⟨(address, pair), ⟨member, covers⟩, rfl⟩, ?_⟩
      exact (entry_mem exported).mpr ⟨types, type, held, current, named⟩

-- No stem names both kinds.
theorem lead_unique {kind kind' : Kind} {rest rest' : String} (same : kind.lead ++ rest = kind'.lead ++ rest') :
    kind = kind' ∧ rest = rest' := by
  have chars := congrArg String.toList same
  rw [String.toList_append, String.toList_append] at chars
  have kinds : kind = kind' := by
    cases kind <;> cases kind'
    · rfl
    · cases chars
    · cases chars
    · rfl
  subst kinds
  exact ⟨rfl, String.toList_inj.mp (List.append_cancel_left chars)⟩

theorem isExported_named (s : Schema) (stem : String) : s.isExported stem = true ↔ s.isEmpty = true ∨
    ∃ (kind : Kind) (rest : String), stem = kind.lead ++ rest ∧ s.publishedName rest ∈ kind.names (s.resources, s.dataSources) := by
  have among : ∀ (kind : Kind) (rest : String), (s.publishedName rest ∈ kind.names (s.resources, s.dataSources)) ↔
      ∃ (kind' : Kind) (rest' : String), kind.lead ++ rest = kind'.lead ++ rest' ∧
        s.publishedName rest' ∈ kind'.names (s.resources, s.dataSources) := by
    intro kind rest
    refine ⟨fun member => ⟨kind, rest, rfl, member⟩, ?_⟩
    rintro ⟨kind', rest', same, member⟩
    obtain ⟨rfl, rfl⟩ := lead_unique same
    exact member
  unfold isExported
  split
  · rename_i empty
    exact iff_of_true rfl (.inl empty)
  · rename_i filled
    rw [or_iff_right filled]
    cases data : stripStart? stem "data_source_" with
    | some rest =>
      rw [stripStart?_exact.mp data]
      exact List.contains_iff_mem.trans (among .dataSource rest)
    | none =>
      cases resource : stripStart? stem "resource_" with
      | some rest =>
        rw [stripStart?_exact.mp resource]
        exact List.contains_iff_mem.trans (among .resource rest)
      | none =>
        refine iff_of_false Bool.false_ne_true ?_
        rintro ⟨kind, rest, whole, _⟩
        have found := stripStart?_exact.mpr whole
        cases kind with
        | resource => exact Option.some_ne_none _ (found.symm.trans resource)
        | dataSource => exact Option.some_ne_none _ (found.symm.trans data)

theorem isEmpty_unlisted (parsed : Json.read? content = some dump) (read : ofJson content provider = .ok s) :
    s.isEmpty = true ↔ ∀ kind type, ¬ Listed dump provider kind type := by
  have nameless : s.isEmpty = true ↔ ∀ (kind : Kind) name, name ∉ kind.names (s.resources, s.dataSources) := by
    rw [isEmpty, Bool.and_eq_true, List.isEmpty_iff, List.isEmpty_iff, List.eq_nil_iff_forall_not_mem,
      List.eq_nil_iff_forall_not_mem]
    refine ⟨fun given kind => ?_, fun given => ⟨given .resource, given .dataSource⟩⟩
    cases kind with
    | resource => exact given.1
    | dataSource => exact given.2
  rw [nameless]
  simp only [ofJson_names parsed read, not_exists, not_and]
  constructor
  · exact fun none kind type listed => none kind _ type listed (Go.resourceName_iff.mp rfl)
  · exact fun none kind _ type listed _ => none kind type listed

-- A stem names a type that a dump lists, versions aside and under the provider's name.
def Exports (dump : Value) (provider stem : String) : Prop :=
  ∃ (kind : Kind) (rest base type : String), stem = kind.lead ++ rest ∧ Unversioned rest base ∧
    Listed dump provider kind type ∧ Unversioned type (Provider.rename base provider)

theorem isExported_exact (parsed : Json.read? content = some dump) (shape : IsDump dump) :
    ∃ s, ofJson content provider = .ok s ∧ ∀ stem, s.isExported stem = true ↔
      (∀ kind type, ¬ Listed dump provider kind type) ∨ Exports dump provider stem := by
  obtain ⟨s, read⟩ : ∃ s, ofJson content provider = .ok s := ofJson_read parsed shape
  refine ⟨s, read, fun stem => ?_⟩
  rw [isExported_named, isEmpty_unlisted parsed read]
  refine or_congr_right ?_
  unfold Exports
  simp only [ofJson_names parsed read, publishedName, ofJson_provider read]
  constructor
  · rintro ⟨kind, rest, whole, type, listed, named⟩
    exact ⟨kind, rest, _, type, whole, Go.resourceName_iff.mp rfl, listed, named⟩
  · rintro ⟨kind, rest, base, type, whole, plain, listed, named⟩
    rw [← Go.resourceName_iff.mpr plain] at named
    exact ⟨kind, rest, whole, type, listed, named⟩

def portsDump : String :=
  "\x7b\"provider_schemas\": \x7b\"g42cloud\": \x7b\"resource_schemas\": " ++
    "\x7b\"g42cloud_networking_port_v2\": \x7b\"block\": \x7b\x7d\x7d\x7d\x7d\x7d\x7d"

theorem isExported_exact_ports : ∃ dump, Json.read? portsDump = some dump ∧ IsDump dump ∧
    ∃ s, ofJson portsDump "g42cloud" = .ok s ∧ s.isExported "resource_huaweicloud_networking_port_v1" = true := by
  have whole : Json.read? portsDump >>= dump? = some ⟨[("g42cloud", ["g42cloud_networking_port"], [])]⟩ := by
    decide +kernel
  obtain ⟨dump, parsed, dumped⟩ := Option.bind_eq_some_iff.mp whole
  have shape : IsDump dump := dump?_isSome.mp (Option.isSome_of_mem dumped)
  have chosen : contains "g42cloud" "g42cloud" = true := by decide +kernel
  have read : ofJson portsDump "g42cloud" = .ok ⟨"g42cloud", ["g42cloud_networking_port"], []⟩ := by
    rw [ofJson, whole]
    simp [chosen]
  obtain ⟨type, listed, named⟩ :=
    (ofJson_names parsed read .resource "g42cloud_networking_port").mp List.mem_cons_self
  obtain ⟨s, made, exact⟩ := @isExported_exact _ "g42cloud" _ parsed shape
  have base : Unversioned "huaweicloud_networking_port_v1" "huaweicloud_networking_port" :=
    Go.resourceName_iff.mp (by decide +kernel)
  have renamed : Provider.rename "huaweicloud_networking_port" "g42cloud" = "g42cloud_networking_port" := by
    decide +kernel
  refine ⟨dump, parsed, shape, s, made, (exact _).mpr (.inr ⟨.resource, _, _, type, ?_, base, listed, ?_⟩)⟩
  · rfl
  · rw [renamed]
    exact named

def deprecatedDump : String :=
  "\x7b\"provider_schemas\": \x7b\"huaweicloud\": \x7b\"resource_schemas\": " ++
    "\x7b\"huaweicloud_vpc\": \x7b\"block\": \x7b\"deprecated\": true\x7d\x7d\x7d\x7d\x7d\x7d"

-- Where each type is deprecated, none is listed, so even a deprecated one is kept.
theorem isExported_deprecated : ∃ dump s, Json.read? deprecatedDump = some dump ∧ IsDump dump ∧
    ofJson deprecatedDump "huaweicloud" = .ok s ∧ s.isExported "resource_huaweicloud_vpc" = true ∧
    ¬ Exports dump "huaweicloud" "resource_huaweicloud_vpc" := by
  have whole : Json.read? deprecatedDump >>= dump? = some ⟨[("huaweicloud", [], [])]⟩ := by decide +kernel
  obtain ⟨dump, parsed, dumped⟩ := Option.bind_eq_some_iff.mp whole
  have shape : IsDump dump := dump?_isSome.mp (Option.isSome_of_mem dumped)
  have chosen : contains "huaweicloud" "huaweicloud" = true := by decide +kernel
  have read : ofJson deprecatedDump "huaweicloud" = .ok ⟨"huaweicloud", [], []⟩ := by
    rw [ofJson, whole]
    simp [chosen]
  refine ⟨dump, _, parsed, shape, read, rfl, ?_⟩
  rintro ⟨kind, _, _, type, _, _, listed, _⟩
  exact (isEmpty_unlisted parsed read).mp rfl kind type listed

end CallAtlas.Schema
