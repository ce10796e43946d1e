import CallAtlas.Proofs.Data.Readable
import CallAtlas.Proofs.Sdk.Packages
import CallAtlas.Proofs.Text.Readings

namespace CallAtlas.Sdk.Generated

open CallAtlas.Text CallAtlas.Text.Pattern Resolving

def pathOpening : String := "WithPath(\""

def verbOpening : String := "WithMethod(http.Method"

def PathText (source path : String) : Prop :=
  FirstRead (Between pathOpening notNewline "\")") source path.toList

def inLiteral (c : Char) : Bool := c != '"' && notNewline c

-- The literal that a call is passed alone.
def PathLiteral (source path : String) : Prop :=
  FirstRead (Between pathOpening inLiteral "\")") source path.toList

def Verb (source verb : String) : Prop := FirstRead (Between verbOpening isWord ")") source verb.toList

-- A generator says where the request goes and by which method.
structure Describes (g : Go.Function) (e : Endpoint) : Prop where
  path : PathText g.source e.url
  method : ∃ verb, Verb g.source verb ∧ Method.ofVerb? verb = some e.method

structure NamesGenerator (text name rest : List Char) : Prop where
  written : text = ":= ".toList ++ (name ++ ("()".toList ++ rest))
  lead : generatorLead.toList <+: name
  worded : name.all isWord = true

inductive Operates (client described : Go.SourceFile) : String → Endpoint → Prop
  | mk {f g : Go.Function} {e : Endpoint} : f ∈ client.functions → g ∈ described.functions →
      FirstRead NamesGenerator f.source g.name.toList → Describes g e → Operates client described f.name e

structure LastEnding (names : List String) (tail name : String) : Prop where
  ends : endsWith name tail = true
  last : ∃ earlier later, names = earlier ++ name :: later ∧ ∀ n ∈ later, endsWith n tail = false

-- The last client file and the last file of generators parse, and each declares no name twice.
structure PackageFiles (tree : SourceTree) (dir : Path) (s : State) (client described : Go.SourceFile) : Prop where
  clientFile : ∃ c, LastEnding (tree.list dir) "_client.go" c ∧ answer (parseFile tree (dir.join c)) s = some client
  generatorFile : ∃ d, LastEnding (tree.list dir) "_meta.go" d ∧ answer (parseFile tree (dir.join d)) s = some described
  operations : (client.functions.map (·.name)).Nodup
  generators : (described.functions.map (·.name)).Nodup

def pairs (file : Go.SourceFile) : List (String × String) := file.functions.map fun f => (f.name, f.source)

section Readings

variable {text name name' rest rest' : List Char} {source path : String}

theorem between_here {opening closing : String} {p : Char → Bool} (filled : opening ≠ "") {before : Option Char} :
    ReadHere (Between opening p closing) before text ↔
      ∃ inside after, text = opening.toList ++ (inside ++ (closing.toList ++ after)) ∧ inside.all p = true := by
  rw [← (between_readsAs filled).here, between_passable]

-- What is read is the literal alone exactly if it has no quote.
theorem pathLiteral_iff (read : PathText source path) : PathLiteral source path ↔ '"' ∉ path.toList := by
  have filled : pathOpening ≠ "" := by decide
  have narrower : ∀ text : List Char, text.all inLiteral = true ↔ '"' ∉ text ∧ text.all notNewline = true := by
    intro text
    simp only [List.all_eq_true, inLiteral, Bool.and_eq_true, bne_iff_ne]
    constructor
    · intro each
      exact ⟨fun quote => (each _ quote).1 rfl, fun c member => (each c member).2⟩
    · rintro ⟨unquoted, line⟩ c member
      exact ⟨fun quote => unquoted (quote ▸ member), line c member⟩
  constructor
  · rintro ⟨lead, text, rest, _, _, between⟩
    exact ((narrower _).mp between.fits).1
  · intro unquoted
    obtain ⟨lead, text, rest, whole, first, between⟩ := read
    have literal : Between pathOpening inLiteral "\")" text path.toList rest := by
      rw [between.written]
      exact between_of_ends (c := '"') rfl (by decide) ((narrower _).mpr ⟨unquoted, between.fits⟩)
    refine ⟨lead, text, rest, whole, ⟨⟨text, whole, _, _, literal⟩, ?_⟩, literal⟩
    rintro other ⟨text', whole', inside, after, between'⟩
    refine first.first other ⟨text', whole', (between_here filled).mpr ⟨inside, after, between'.written, ?_⟩⟩
    exact ((narrower _).mp between'.fits).2

theorem generator_reading : Reading NamesGenerator := by
  constructor
  · intro text name name' rest rest' one two
    have same := List.append_cancel_left (one.written.symm.trans two.written)
    have spans := congrArg (List.takeWhile isWord) same
    rw [takeWhile_inside one.worded rfl, takeWhile_inside two.worded rfl] at spans
    subst spans
    exact ⟨rfl, List.append_cancel_left (List.append_cancel_left same)⟩
  · intro text name rest read
    exact ⟨':', "= ".toList ++ (name ++ "()".toList), by rw [read.written]; simp⟩

theorem generator_readsAs : generatorPattern.ReadsAs oneGroup NamesGenerator := by
  refine readsAs_of generator_reading ?_ ?_
  · rintro ⟨before, text, openAt, groups⟩ t ran fresh
    obtain ⟨_, _, here, ran⟩ := run_cons_text ran
    obtain ⟨_, opens, ran⟩ := run_cons ran
    cases opens
    obtain ⟨_, _, here', ran⟩ := run_cons_text ran
    obtain ⟨stem, _, _, here'', fits, ran⟩ := run_cons_many ran
    obtain ⟨_, closes, ran⟩ := run_cons ran
    cases closes
    obtain ⟨_, _, closed, done⟩ := run_cons_text ran
    cases done
    dsimp only at here here' here'' closed fresh ⊢
    subst here here' here'' closed fresh
    refine ⟨generatorLead.toList ++ stem, ⟨?_, List.prefix_append _ _, ?_⟩, ?_⟩
    · simp only [List.append_assoc]
    · rw [List.all_append, fits]
      decide
    · rw [← List.append_assoc generatorLead.toList, take_front]
      rfl
  · rintro s name rest read
    obtain ⟨stem, rfl⟩ := read.lead
    have fits : stem.all isWord = true := by
      have worded := read.worded
      rw [List.all_append] at worded
      exact (Bool.and_eq_true_iff.mp worded).2
    exact run_isSome.mpr ⟨_, read.written, _, List.append_assoc .., stem, _, rfl, fits, _, rfl, trivial⟩

end Readings

section Tables

variable {tree : SourceTree} {dir : Path} {s : State} {client described : Go.SourceFile} {f g : Go.Function}
  {op : String} {e : Endpoint}

theorem describes_iff : Describes g e ↔ ∃ verb, (methodPattern.find? g.source).map (·.group 0) = some verb ∧
    (pathPattern.find? g.source).map (·.group 0) = some e.url ∧ Method.ofVerb? verb = some e.method := by
  have methods : ∀ verb, (methodPattern.find? g.source).map (·.group 0) = some verb ↔ Verb g.source verb :=
    fun _ => (between_readsAs (by decide)).find?_group (between_reading (by decide))
  have paths : (pathPattern.find? g.source).map (·.group 0) = some e.url ↔ PathText g.source e.url :=
    (between_readsAs (by decide)).find?_group (between_reading (by decide))
  simp only [methods, paths]
  constructor
  · rintro ⟨path, verb, named, method⟩
    exact ⟨verb, named, path, method⟩
  · rintro ⟨verb, named, path, method⟩
    exact ⟨path, verb, named, method⟩

theorem described?_exact : described? g = some e ↔ generatorLead.toList <+: g.name.toList ∧ Describes g e := by
  rw [describes_iff, described?, startsWith]
  by_cases named : generatorLead.toList <+: g.name.toList
  · simp only [List.isPrefixOf_iff_prefix.mpr named, named, if_true, true_and]
    cases methodPattern.find? g.source with
    | none => simp
    | some method =>
      cases pathPattern.find? g.source with
      | none => simp
      | some path =>
        obtain ⟨url, m⟩ := e
        simp only [Option.map_eq_some_iff, Option.map_some, Option.some.injEq, Endpoint.mk.injEq]
        constructor
        · rintro ⟨m, verb, rfl, rfl⟩
          exact ⟨_, rfl, rfl, verb⟩
        · rintro ⟨_, rfl, rfl, verb⟩
          exact ⟨m, verb, rfl, rfl⟩
  · simp [named, mt List.isPrefixOf_iff_prefix.mp named]

theorem descriptions_exact (distinct : (described.functions.map (·.name)).Nodup) :
    (descriptions described).get? op = some e ↔ ∃ g ∈ described.functions, g.name = op ∧ described? g = some e :=
  SortedMap.get?_named distinct

theorem requested?_exact (distinct : (described.functions.map (·.name)).Nodup) :
    requested? (descriptions described) f = some e ↔ ∃ g ∈ described.functions,
      FirstRead NamesGenerator f.source g.name.toList ∧ Describes g e := by
  rw [requested?, Option.bind_eq_some_iff]
  simp only [generator_readsAs.find?_group generator_reading, descriptions_exact distinct, described?_exact]
  constructor
  · rintro ⟨_, first, g, member, rfl, _, describes⟩
    exact ⟨g, member, first, describes⟩
  · rintro ⟨g, member, first, describes⟩
    obtain ⟨lead, text, rest, _, _, read⟩ := id first
    exact ⟨g.name, first, g, member, rfl, read.lead, describes⟩

theorem find?_last {names : List String} {tail name : String} (last : LastEnding names tail name) :
    names.reverse.find? (endsWith · tail) = some name := by
  obtain ⟨earlier, later, rfl, others⟩ := last.last
  rw [List.reverse_append, List.reverse_cons, List.append_assoc, List.find?_append]
  have none : later.reverse.find? (endsWith · tail) = none := by
    simpa using others
  rw [none]
  simp [last.ends]

theorem resolvePackage_table (held : PackageFiles tree dir s client described) :
    ∃ table : EndpointTable, answer (resolvePackage tree dir) s = some table ∧ table.Sorted ∧
      ∀ op e, table.get? op = some e ↔ Operates client described op e := by
  obtain ⟨c, clientLast, clientParsed⟩ := held.clientFile
  obtain ⟨d, describedLast, describedParsed⟩ := held.generatorFile
  have files : clientAndMeta? tree dir = some (dir.join c, dir.join d) := by
    rw [clientAndMeta?]
    simp only [find?_last clientLast, find?_last describedLast]
  rw [answer_parseFile s tree (dir.join c) (after (parseFile tree (dir.join d)) s)] at clientParsed
  refine ⟨.ofList (client.functions.filterMap fun f => (requested? (descriptions described) f).map (f.name, ·)),
    ?_, SortedMap.ofList_sorted _, fun op e => ?_⟩
  · rw [resolvePackage, files]
    simp only [answer_bind, describedParsed, clientParsed, (operations_exact ..).1, answer_pure]
    rfl
  · rw [SortedMap.get?_named held.operations]
    simp only [requested?_exact held.generators]
    constructor
    · rintro ⟨f, member, rfl, g, member', first, describes⟩
      exact .mk member member' first describes
    · rintro ⟨member, member', first, describes⟩
      exact ⟨_, member, rfl, _, member', first, describes⟩

theorem resolvePackage_same {tree' : SourceTree} {client' described' : Go.SourceFile}
    (held : PackageFiles tree dir s client described) (held' : PackageFiles tree' dir s client' described')
    (same : ∀ op e, Operates client' described' op e ↔ Operates client described op e) :
    answer (resolvePackage tree' dir) s = answer (resolvePackage tree dir) s := by
  obtain ⟨table, answered, sorted, entries⟩ := resolvePackage_table held
  obtain ⟨table', answered', sorted', entries'⟩ := resolvePackage_table held'
  rw [answered, answered', sorted'.ext sorted fun op => Option.ext fun e => ?_]
  rw [entries', entries, same]

theorem Describes.same (describes : Describes g e) {h : Go.Function} (same : h.source = g.source) : Describes h e :=
  ⟨same ▸ describes.path, same ▸ describes.method⟩

-- An entry stays as long as its operation and its generator do, wherever they stand.
theorem Operates.kept {client' described' : Go.SourceFile} (operates : Operates client described op e)
    (operation : ∀ f ∈ client.functions, f.name = op →
      ∃ f' ∈ client'.functions, f'.name = f.name ∧ f'.source = f.source)
    (generators : ∀ g ∈ described.functions, ∃ g' ∈ described'.functions, g'.name = g.name ∧ g'.source = g.source) :
    Operates client' described' op e := by
  obtain ⟨member, member', first, describes⟩ := operates
  obtain ⟨f', there, named, source⟩ := operation _ member rfl
  obtain ⟨g', there', named', source'⟩ := generators _ member'
  rw [← named]
  refine .mk there there' ?_ (describes.same source')
  rwa [source, named']

theorem of_pair {file : Go.SourceFile} (member : (f.name, f.source) ∈ pairs file) :
    ∃ f' ∈ file.functions, f'.name = f.name ∧ f'.source = f.source := by
  obtain ⟨f', inside, same⟩ := List.mem_map.mp member
  exact ⟨f', inside, congrArg Prod.fst same, congrArg Prod.snd same⟩

-- The table says which request each operation has by its generator. Operations that have none can be left out, and
-- the order of the functions does not matter.
theorem generated_table_exact (held : PackageFiles tree dir s client described) :
    (∃ table : EndpointTable, answer (resolvePackage tree dir) s = some table ∧
      ∀ op e, table.get? op = some e ↔ Operates client described op e) ∧
    (∀ g e, Describes g e → (PathLiteral g.source e.url ↔ '"' ∉ e.url.toList)) ∧
    (∀ tree' client' described', PackageFiles tree' dir s client' described' → described.Permuted described' →
      (pairs client').Sublist (pairs client) →
      (∀ f ∈ client.functions, (∃ e, Operates client described f.name e) → (f.name, f.source) ∈ pairs client') →
      answer (resolvePackage tree' dir) s = answer (resolvePackage tree dir) s) ∧
    ∀ tree' client' described', PackageFiles tree' dir s client' described' → client.Permuted client' →
      described.Permuted described' → answer (resolvePackage tree' dir) s = answer (resolvePackage tree dir) s := by
  obtain ⟨table, answered, _, entries⟩ := resolvePackage_table held
  refine ⟨⟨table, answered, entries⟩, fun g e describes => pathLiteral_iff describes.path, ?_, ?_⟩
  · intro tree' client' described' held' generators part rest
    refine resolvePackage_same held held' fun op e => ⟨fun operates => ?_, fun operates => ?_⟩
    · exact operates.kept (fun f member _ => of_pair (part.subset (List.mem_map_of_mem member)))
        fun g => generators.symm.counterpart
    · exact operates.kept (fun f member named => of_pair (rest f member ⟨e, named ▸ operates⟩))
        fun g => generators.counterpart
  · intro tree' client' described' held' clients generators
    refine resolvePackage_same held held' fun op e => ⟨fun operates => ?_, fun operates => ?_⟩
    · exact operates.kept (fun f member _ => clients.symm.counterpart member) fun g => generators.symm.counterpart
    · exact operates.kept (fun f member _ => clients.counterpart member) fun g => generators.counterpart

end Tables

def clientFile : Path := ⟨"p/v_client.go"⟩

def generatorFile : Path := ⟨"p/v_meta.go"⟩

-- A package with some operations and one generator.
def generated (operations : List String) (generator : String) : SourceTree :=
  { SourceTree.ofFiles [(clientFile, .text (String.join operations)), (generatorFile, .text generator)] with
    list := fun _ => ["v_client.go", "v_meta.go"] }

def declared? (path : Path) (source : String) : Option (List (String × String)) :=
  (Go.SourceFile.ofText path source).toOption.map pairs

theorem parseFile_text {tree : SourceTree} {path : Path} {source : String} (s : State)
    (there : tree.read? path = some (.text source)) :
    answer (parseFile tree path) s = (Go.SourceFile.ofText path source).toOption := by
  have body : Go.SourceFile.ofBody path (.text source) = Go.SourceFile.ofText path source := rfl
  rw [parseFile, answer_bind, there]
  dsimp only
  rw [body]
  cases Go.SourceFile.ofText path source <;> rfl

theorem generated_client (operations : List String) (text : String) :
    (generated operations text).read? clientFile = some (.text (String.join operations)) := by
  simp [generated, SourceTree.ofFiles]

theorem generated_generator (operations : List String) (text : String) :
    (generated operations text).read? generatorFile = some (.text text) := by
  have other : (clientFile.components == generatorFile.components) = false := by decide
  simp [generated, SourceTree.ofFiles, other]

theorem generated_files {operations : List String} {text : String} {functions generators : List (String × String)}
    (parsed : declared? clientFile (String.join operations) = some functions)
    (parsed' : declared? generatorFile text = some generators)
    (distinct : (functions.map Prod.fst).Nodup) (distinct' : (generators.map Prod.fst).Nodup) :
    ∃ client described, PackageFiles (generated operations text) ⟨"p"⟩ {} client described ∧
      pairs client = functions ∧ pairs described = generators := by
  obtain ⟨client, clientParsed, rfl⟩ := Option.map_eq_some_iff.mp parsed
  obtain ⟨described, describedParsed, rfl⟩ := Option.map_eq_some_iff.mp parsed'
  rw [pairs, List.map_map] at distinct distinct'
  refine ⟨client, described, ⟨⟨"v_client.go", ⟨by decide, [], _, rfl, by decide⟩, ?_⟩,
    ⟨"v_meta.go", ⟨by decide, ["v_client.go"], [], rfl, by decide⟩, ?_⟩, distinct, distinct'⟩, rfl, rfl⟩
  · rw [show Path.join ⟨"p"⟩ "v_client.go" = clientFile from by decide, parseFile_text {} (generated_client ..)]
    exact clientParsed
  · rw [show Path.join ⟨"p"⟩ "v_meta.go" = generatorFile from by decide, parseFile_text {} (generated_generator ..)]
    exact describedParsed

def lister : String := "func ListVpcs()\x7bd := GenReqDefForListVpcs()\x7d\n"

def stranger : String := "func ShowVpc()\x7bd := GenReqDefForShowVpc()\x7d\n"

def generator (rest : String) : String :=
  "func GenReqDefForListVpcs()\x7bb.WithMethod(http.MethodGet).WithPath(\"/v2/vpcs\")" ++ rest ++ "\x7d"

def typed : String := ".WithContentType(\"application/json\")"

def listerPair : String × String := ("ListVpcs", "func ListVpcs()\x7bd := GenReqDefForListVpcs()\x7d")

def strangerPair : String × String := ("ShowVpc", "func ShowVpc()\x7bd := GenReqDefForShowVpc()\x7d")

def generatorPair (rest : String) : String × String := ("GenReqDefForListVpcs", generator rest)

theorem lister_declared : declared? clientFile (String.join [lister]) = some [listerPair] := by decide +kernel

section Listing

variable {client described : Go.SourceFile} {f : Go.Function} {e : Endpoint} {rest url : String}

theorem lister_names : FirstRead NamesGenerator listerPair.2 "GenReqDefForListVpcs".toList :=
  (generator_readsAs.find?_group generator_reading).mp (by decide +kernel)

theorem generator_verb (found : (methodPattern.find? (generator rest)).map (·.group 0) = some "Get") :
    Verb (generator rest) "Get" :=
  ((between_readsAs (by decide)).find?_group (between_reading (by decide))).mp found

theorem generator_path (found : (pathPattern.find? (generator rest)).map (·.group 0) = some url) :
    PathText (generator rest) url :=
  ((between_readsAs (by decide)).find?_group (between_reading (by decide))).mp found

theorem lister_operates (operation : listerPair ∈ pairs client) (declared : generatorPair rest ∈ pairs described)
    (path : PathText (generator rest) url) (verb : Verb (generator rest) "Get") :
    Operates client described "ListVpcs" ⟨url, .get⟩ := by
  obtain ⟨f, member, named⟩ := List.mem_map.mp operation
  obtain ⟨g, member', named'⟩ := List.mem_map.mp declared
  obtain ⟨name, source⟩ := Prod.mk.inj named
  obtain ⟨name', source'⟩ := Prod.mk.inj named'
  rw [← name]
  refine .mk member member' ?_ ⟨source' ▸ path, "Get", source' ▸ verb, rfl⟩
  rw [source, name']
  exact lister_names

theorem Operates.named {op : String} (operates : Operates client described op e) : ∃ f ∈ client.functions,
    f.name = op ∧ ∃ g ∈ described.functions, FirstRead NamesGenerator f.source g.name.toList := by
  obtain ⟨member, member', first, _⟩ := operates
  exact ⟨_, member, rfl, _, member', first⟩

-- What it names is no generator of the package.
theorem stranger_stays (functions : pairs client = [listerPair, strangerPair])
    (generators : pairs described = [generatorPair rest]) : ¬ Operates client described "ShowVpc" e := by
  intro operates
  obtain ⟨f, member, name, g, member', first⟩ := operates.named
  have own : (f.name, f.source) ∈ pairs client := List.mem_map_of_mem member
  have there : (g.name, g.source) ∈ pairs described := List.mem_map_of_mem member'
  rw [generators, List.mem_singleton] at there
  rw [functions, List.mem_cons, List.mem_singleton, name] at own
  have source : f.source = strangerPair.2 := by
    rcases own with same | same
    · exact absurd (congrArg Prod.fst same) (show "ShowVpc" ≠ "ListVpcs" by decide)
    · exact congrArg Prod.snd same
  have read := (generator_readsAs.find?_group generator_reading).mpr first
  rw [source, show g.name = "GenReqDefForListVpcs" from congrArg Prod.fst there] at read
  exact absurd read (by decide +kernel)

end Listing

theorem generated_table_exact_vpcs :
    ∃ client described, PackageFiles (generated [lister, stranger] (generator "")) ⟨"p"⟩ {} client described ∧
      Operates client described "ListVpcs" ⟨"/v2/vpcs", .get⟩ ∧
      answer (resolvePackage (generated [lister] (generator "")) ⟨"p"⟩) {} =
        answer (resolvePackage (generated [lister, stranger] (generator "")) ⟨"p"⟩) {} ∧
      answer (resolvePackage (generated [stranger, lister] (generator "")) ⟨"p"⟩) {} =
        answer (resolvePackage (generated [lister, stranger] (generator "")) ⟨"p"⟩) {} := by
  have parsed : declared? generatorFile (generator "") = some [generatorPair ""] := by decide +kernel
  obtain ⟨client, described, held, functions, generators⟩ := @generated_files [lister, stranger] _
    [listerPair, strangerPair] _ (by decide +kernel) parsed (by decide) (by decide)
  obtain ⟨part, described₁, held₁, functions₁, generators₁⟩ := @generated_files [lister] _ _ _ lister_declared parsed
    (by decide) (by decide)
  obtain ⟨turned, described₂, held₂, functions₂, generators₂⟩ := @generated_files [stranger, lister] _
    [strangerPair, listerPair] _ (by decide +kernel) parsed (by decide) (by decide)
  obtain ⟨_, _, without, order⟩ := generated_table_exact held
  refine ⟨client, described, held, ?_, ?_, ?_⟩
  · refine @lister_operates _ _ "" _ ?_ ?_ (generator_path (by decide +kernel)) (generator_verb (by decide +kernel))
    · rw [functions]
      exact List.mem_cons_self
    · rw [generators]
      exact List.mem_cons_self
  · refine without _ part described₁ held₁ (.of_eq (generators.trans generators₁.symm)) ?_ ?_
    · rw [functions, functions₁]
      exact .cons_cons _ (.cons _ .slnil)
    · rintro f member ⟨e, operates⟩
      have one : (f.name, f.source) ∈ pairs client := List.mem_map_of_mem member
      rw [functions, List.mem_cons, List.mem_singleton] at one
      rw [functions₁, List.mem_singleton]
      refine one.resolve_right fun same => stranger_stays functions generators (e := e) ?_
      rwa [show f.name = "ShowVpc" from congrArg Prod.fst same] at operates
  · refine order _ turned described₂ held₂ ?_ (.of_eq (generators.trans generators₂.symm))
    change (pairs client).Perm (pairs turned)
    rw [functions, functions₂]
    exact .swap _ _ []

-- The path is passed alone, and the URL of the operation is another text.
theorem path_runs_on :
    ∃ client described, PackageFiles (generated [lister] (generator typed)) ⟨"p"⟩ {} client described ∧
      ∃ f ∈ client.functions, ∃ g ∈ described.functions, f.name = "ListVpcs" ∧
        FirstRead NamesGenerator f.source g.name.toList ∧ PathLiteral g.source "/v2/vpcs" ∧ Verb g.source "Get" ∧
        (answer (resolvePackage (generated [lister] (generator typed)) ⟨"p"⟩) {}).bind (·.get? "ListVpcs") =
          some ⟨"/v2/vpcs\").WithContentType(\"application/json", .get⟩ := by
  obtain ⟨client, described, held, functions, generators⟩ := @generated_files [lister] (generator typed) _
    [generatorPair typed] lister_declared (by decide +kernel) (by decide) (by decide)
  have operation : listerPair ∈ pairs client := by
    rw [functions]
    exact List.mem_cons_self
  have declared : generatorPair typed ∈ pairs described := by
    rw [generators]
    exact List.mem_cons_self
  have verb : Verb (generator typed) "Get" := generator_verb (by decide +kernel)
  obtain ⟨f, member, named⟩ := List.mem_map.mp operation
  obtain ⟨g, member', named'⟩ := List.mem_map.mp declared
  obtain ⟨name, source⟩ := Prod.mk.inj named
  obtain ⟨name', source'⟩ := Prod.mk.inj named'
  refine ⟨client, described, held, f, member, g, member', name, ?_, ?_, source' ▸ verb, ?_⟩
  · rw [source, name']
    exact lister_names
  · rw [source']
    exact ((between_readsAs (by decide)).find?_group (between_reading (by decide))).mp (by decide +kernel)
  · obtain ⟨table, answered, _, entries⟩ := resolvePackage_table held
    rw [answered, Option.bind_some, entries]
    exact lister_operates operation declared (generator_path (by decide +kernel)) verb

end CallAtlas.Sdk.Generated
