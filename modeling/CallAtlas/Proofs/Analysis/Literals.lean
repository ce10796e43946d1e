import CallAtlas.Proofs.Analysis.Templates
import CallAtlas.Proofs.Text.Captures

namespace CallAtlas

open CallAtlas.Text Sdk Sdk.Resolving Sdk.Vendor

def PathBehind (source : String) (behind : List Char) : Prop :=
  "WithPath(\"".toList ++ behind <:+ source.toList

def ClosesPath (rest : List Char) : Prop := "\")".toList <+: rest

def TypeBehind (trailing : String) (behind : List Char) : Prop :=
  ∃ blank, isBlank blank = true ∧ ',' :: blank :: '"' :: behind <:+ trailing.toList

def ClosesType (rest : List Char) : Prop := "\",".toList <+: rest

-- The first two arguments of the tag helper are words.
def ServiceBehind (source : String) (behind : List Char) : Prop :=
  ∃ client data first second, client.all isWord = true ∧ data.all isWord = true ∧
    isBlank first = true ∧ isBlank second = true ∧
    "utils.UpdateResourceTags(".toList ++ client ++ ',' :: first :: data ++ ',' :: second :: '"' :: behind <:+
      source.toList

def ClosesService (rest : List Char) : Prop :=
  ∃ blank argument more, isBlank blank = true ∧ '\n' ∉ argument ∧
    rest = '"' :: ',' :: blank :: (argument ++ ')' :: more)

theorem ClosesPath.quote (rest : List Char) (closes : ClosesPath rest) : rest.head? = some '"' := by
  obtain ⟨_, rfl⟩ := closes
  rfl

theorem ClosesType.quote (rest : List Char) (closes : ClosesType rest) : rest.head? = some '"' := by
  obtain ⟨_, rfl⟩ := closes
  rfl

theorem ClosesService.quote (rest : List Char) (closes : ClosesService rest) : rest.head? = some '"' := by
  obtain ⟨_, _, _, _, _, rfl⟩ := closes
  rfl

theorem pathPattern_takes {source : String} {m : Match} (found : Generated.pathPattern.find? source = some m) :
    ∃ behind, PathBehind source behind ∧ Takes ClosesPath behind (m.group 0).toList := by
  obtain ⟨passed, rest, place, before, whole, here⟩ := Pattern.firstFrom_located found
  obtain ⟨behind, leads, takes⟩ := Pattern.group_takes [word "WithPath(\""] [word "\")"]
    (fun _ => Pattern.run_word) here
  obtain ⟨_, rfl, rfl⟩ := leads
  exact ⟨_, ⟨passed, whole.symm⟩, takes⟩

theorem resourceType_takes {trailing : String} {m : Match} (found : Tag.resourceType.find? trailing = some m) :
    ∃ behind, TypeBehind trailing behind ∧ Takes ClosesType behind (m.group 0).toList := by
  obtain ⟨passed, rest, place, before, whole, here⟩ := Pattern.firstFrom_located found
  obtain ⟨behind, leads, takes⟩ := Pattern.group_takes [word ",", .one isBlank, word "\""]
    [word "\","] (fun _ => Pattern.run_word) here
  obtain ⟨_, rfl, blank, _, rfl, fits, _, rfl, rfl⟩ := leads
  exact ⟨_, ⟨blank, fits, passed, whole.symm⟩, takes⟩

theorem service_closes (s : Pattern.State) :
    (Pattern.run [word "\",", .one isBlank, .opens, .many Pattern.notNewline, .closes, word ")"] s).isSome = true ↔
      ClosesService s.rest := by
  constructor
  · intro runs
    obtain ⟨t, ran⟩ := Option.isSome_iff_exists.mp runs
    have leads := (Pattern.run_exact ran).leads
    obtain ⟨_, quote, blank, _, rfl, fits, argument, _, rfl, inLine, more, rfl, _⟩ := leads
    refine ⟨blank, argument, more, fits, ?_, quote⟩
    exact fun newline => absurd (List.all_eq_true.mp inLine _ newline) (by decide)
  · rintro ⟨blank, argument, more, fits, inLine, whole⟩
    have quoted : Pattern.passText "\",".toList s.before s.rest =
        some (some ',', blank :: (argument ++ ')' :: more)) := by
      rw [whole]
      rfl
    simp only [word, Pattern.run, quoted, fits, if_true]
    refine Pattern.manyThen_finds ?_ rfl
    refine List.all_eq_true.mpr fun c member => bne_iff_ne.mpr ?_
    exact fun newline => inLine (newline ▸ member)

theorem helper_takes {source : String} {h : Tag.HelperCall} (called : Tag.helperCall? source = some h) :
    ∃ behind, ServiceBehind source behind ∧ Takes ClosesService behind h.serviceType.toList := by
  obtain ⟨m, found, rfl⟩ := Option.map_eq_some_iff.mp called
  obtain ⟨passed, rest, place, before, whole, here⟩ := Pattern.firstFrom_located found
  obtain ⟨behind, leads, takes⟩ := Pattern.group_takes
    [word "utils.UpdateResourceTags(", .opens, .many isWord, .closes, word ",", .one isBlank, .opens,
      .many isWord, .closes, word ",", .one isBlank, word "\""]
    [word "\",", .one isBlank, .opens, .many Pattern.notNewline, .closes, word ")"] service_closes here
  obtain ⟨_, rfl, client, _, rfl, isClient, _, rfl, first, _, rfl, fits, data, _, rfl, isData, _, rfl, second, _,
    rfl, fitsToo, _, rfl, rfl⟩ := leads
  refine ⟨_, ⟨client, data, first, second, isClient, isData, fits, fitsToo, passed, ?_⟩, takes⟩
  rw [whole]
  simp

namespace Sdk

-- The constants and variables that URL files use are bound to texts without quotes.
def SourceTree.PlainLiterals (tree : SourceTree) : Prop :=
  ∀ path file, tree.Holds path file → ∀ l ∈ file.literals, '"' ∉ l.2.toList

-- The texts that a file binds at its top.
def literalTexts (entry : Path × Body) : List String :=
  match Go.SourceFile.ofBody entry.1 entry.2 with
  | .ok file => file.literals.map (·.2)
  | .error _ => []

theorem SourceTree.ofFiles_plain {files : List (Path × Body)}
    (plain : ∀ text ∈ files.flatMap literalTexts, '"' ∉ text.toList) : (ofFiles files).PlainLiterals := by
  intro path file held l bound
  obtain ⟨body, found, read⟩ := held
  obtain ⟨entry, first, rfl⟩ := Option.map_eq_some_iff.mp found
  refine plain l.2 (List.mem_flatMap.mpr ⟨entry, List.mem_of_find?_eq_some first, ?_⟩)
  unfold literalTexts
  rw [Go.SourceFile.ofBody_path read entry.1]
  exact List.mem_map_of_mem bound

theorem stripQuery_chars {url : String} : ∀ c ∈ (stripQuery url).toList, c ∈ url.toList := by
  intro c member
  unfold stripQuery at member
  dsimp only at member
  split at member
  · exact member
  · rw [String.toList_ofList] at member
    exact (List.takeWhile_prefix _).subset member

-- A query that begins in the literal is cut off with all that follows it.
theorem stripQuery_literal (literal more : List Char) :
    '"' ∈ (stripQuery (String.ofList (literal ++ '"' :: more))).toList ∨
      stripQuery (String.ofList (literal ++ '"' :: more)) = stripQuery (String.ofList literal) := by
  unfold stripQuery
  simp only [String.toList_ofList]
  by_cases query : '?' ∈ literal
  · obtain ⟨lead, rest, rfl, before⟩ := List.eq_append_cons_of_mem query
    have fits : ∀ c ∈ lead, (c != '?') = true := fun c member => bne_iff_ne.mpr fun same => before (same ▸ member)
    have lead_of : ∀ after, (lead ++ '?' :: after).takeWhile (· != '?') = lead := by
      intro after
      rw [List.takeWhile_append_of_pos fits]
      simp
    rw [List.append_assoc, List.cons_append, lead_of, lead_of]
    split
    · left
      simp
    · exact .inr rfl
  · left
    have fits : ∀ c ∈ literal, (c != '?') = true := fun c member => bne_iff_ne.mpr fun same => query (same ▸ member)
    rw [List.takeWhile_append_of_pos fits]
    simp

theorem segment_unquoted {literal? : String → Option String}
    (plain : ∀ name value, literal? name = some value → '"' ∉ value.toList) (arg : String) :
    '"' ∉ (Rest.segment literal? arg).toList := by
  unfold Rest.segment
  split
  · simp
  · rename_i none
    split
    · rename_i value found
      exact plain arg value found
    · split
      · decide
      · simpa [containsChar] using none

theorem builderUrl?_unquoted {literal? : String → Option String} {source url : String}
    (plain : ∀ name value, literal? name = some value → '"' ∉ value.toList)
    (builds : Rest.builderUrl? literal? source = some url) : '"' ∉ url.toList := by
  obtain ⟨args, _, rfl⟩ := Option.map_eq_some_iff.mp builds
  intro member
  rcases mem_join member with slash | ⟨part, inside, own⟩
  · exact absurd slash (by decide)
  · obtain ⟨arg, _, rfl⟩ := List.mem_map.mp inside
    exact segment_unquoted plain arg own

theorem fixedUrl?_unquoted {path : Path} {function url : String} (given : fixedUrl? path function = some url) :
    '"' ∉ url.toList := by
  obtain ⟨x, first, rfl⟩ := Option.map_eq_some_iff.mp given
  have all : ∀ x ∈ fixedUrls, '"' ∉ x.url.toList := by decide
  exact all x (List.mem_of_find?_eq_some first)

-- What a package offers when the path of a described request ends with its literal. The query is cut
-- off.
inductive SourceTree.OffersLiteral (tree : SourceTree) : String → Prop where
  | built {dir : Path} {n url : String} {file : Go.SourceFile} {f : Go.Function}
      (name : n ∈ Rest.urlFiles) (held : tree.Holds (dir.join n) file) (member : f ∈ file.functions)
      (builds : Rest.urlFunction file f = .builds url) : OffersLiteral tree (stripQuery url)
  | fixed {path : Path} {function url : String} (given : fixedUrl? path function = some url) :
      OffersLiteral tree (stripQuery url)
  | described {path : Path} {file : Go.SourceFile} {f : Go.Function} {e : Endpoint} {behind : List Char}
      (held : tree.Holds path file) (member : f ∈ file.functions)
      (shown : Generated.described? f = some e) (stands : PathBehind f.source behind) :
      OffersLiteral tree (stripQuery (String.ofList (literalOf behind)))

-- What it offers when the line of the path may close again behind the literal.
inductive SourceTree.Overruns (tree : SourceTree) : String → Prop where
  | described {path : Path} {file : Go.SourceFile} {f : Go.Function} {e : Endpoint} {behind : List Char}
      (held : tree.Holds path file) (member : f ∈ file.functions)
      (shown : Generated.described? f = some e) (stands : PathBehind f.source behind)
      (takes : Takes ClosesPath behind e.url.toList) (again : ClosesAgain ClosesPath (afterLiteral behind)) :
      Overruns tree (stripQuery e.url)

theorem described?_takes {f : Go.Function} {e : Endpoint} (shown : Generated.described? f = some e) :
    ∃ behind, PathBehind f.source behind ∧ Takes ClosesPath behind e.url.toList := by
  unfold Generated.described? at shown
  split at shown
  · split at shown
    · rename_i path _ found
      obtain ⟨_, _, rfl⟩ := Option.map_eq_some_iff.mp shown
      exact pathPattern_takes found
    · cases shown
  · cases shown

theorem urlFunction_unquoted {tree : SourceTree} (plain : tree.PlainLiterals) {path : Path} {file : Go.SourceFile}
    (held : tree.Holds path file) {f : Go.Function} {url : String} (builds : Rest.urlFunction file f = .builds url) :
    '"' ∉ url.toList := by
  unfold Rest.urlFunction at builds
  split at builds
  · rename_i built
    cases builds
    exact builderUrl?_unquoted (fun _ _ bound => plain path file held _ (Cache.lookup_mem bound)) built
  · split at builds <;> cases builds

theorem SourceTree.OffersLiteral.unquoted {tree : SourceTree} (plain : tree.PlainLiterals) {url : String}
    (offers : tree.OffersLiteral url) : '"' ∉ url.toList := by
  intro quote
  cases offers with
  | built name held member builds => exact urlFunction_unquoted plain held builds (stripQuery_chars _ quote)
  | fixed given => exact fixedUrl?_unquoted given (stripQuery_chars _ quote)
  | described held member shown stands =>
    exact literalOf_unquoted _ (by simpa using stripQuery_chars _ quote)

theorem offers_literal {tree : SourceTree} {url : String} (offers : tree.Offers url) :
    tree.OffersLiteral (stripQuery url) ∨ ('"' ∈ (stripQuery url).toList ∧ tree.Overruns (stripQuery url)) := by
  cases offers with
  | built name held member builds => exact .inl (.built name held member builds)
  | fixed given => exact .inl (.fixed given)
  | described held member shown =>
    rename_i e
    obtain ⟨behind, stands, takes⟩ := described?_takes shown
    have literal := SourceTree.OffersLiteral.described held member shown stands
    by_cases quoted : '"' ∈ e.url.toList
    · obtain ⟨rest, whole, _⟩ := takes.closed
      have split : e.url = String.ofList (literalOf behind ++ '"' :: afterLiteral e.url.toList) := by
        rw [whole, (literal_append quoted rest).1, ← literal_whole quoted, String.ofList_toList]
      rcases stripQuery_literal (literalOf behind) (afterLiteral e.url.toList) with stays | cut
      · rw [← split] at stays
        exact .inr ⟨stays, .described held member shown stands takes (takes.again quoted)⟩
      · rw [← split] at cut
        rw [cut]
        exact .inl literal
    · rw [← takes.literal ClosesPath.quote quoted, String.ofList_toList] at literal
      exact .inl literal

end Sdk

namespace Analyzer

-- Every text of the URL is a literal up to its closing quote.
inductive OneLiteral (a : Analyzer) (file : Go.SourceFile) : String → Prop where
  | endpoint {url : String} (offers : a.vendor.tree.OffersLiteral url) : OneLiteral a file url
  | filled {url : String} {f : Go.Function} {package : Package} {i : Invocation} {behind : List Char}
      (rest : (a.conventionOf file).kind = .rest) (offers : a.vendor.tree.OffersLiteral url)
      (member : f ∈ file.functions) (invoked : i ∈ (a.conventionOf file).invocations f.source package)
      (stands : TypeBehind i.trailing behind) :
      OneLiteral a file (replace url "\x7bresourceType\x7d" (String.ofList (literalOf behind)))
  | helper {f : Go.Function} {behind : List Char} (rest : (a.conventionOf file).kind = .rest)
      (member : f ∈ file.functions) (stands : ServiceBehind f.source behind) :
      OneLiteral a file (String.ofList (literalOf behind) ++ "/\x7bid\x7d/tags/action")

-- Some text of the URL goes on behind its literal, and the line of the literal may close again there.
inductive Overruns (a : Analyzer) (file : Go.SourceFile) : String → Prop where
  | endpoint {url : String} (overruns : a.vendor.tree.Overruns url) : Overruns a file url
  | filled {url : String} {f : Go.Function} {package : Package} {i : Invocation} {behind text : List Char}
      (rest : (a.conventionOf file).kind = .rest) (offers : a.vendor.tree.Offers url)
      (member : f ∈ file.functions) (invoked : i ∈ (a.conventionOf file).invocations f.source package)
      (stands : TypeBehind i.trailing behind) (takes : Takes ClosesType behind text)
      (again : a.vendor.tree.Overruns (stripQuery url) ∨ ClosesAgain ClosesType (afterLiteral behind)) :
      Overruns a file (replace (stripQuery url) "\x7bresourceType\x7d" (String.ofList text))
  | helper {f : Go.Function} {behind text : List Char} (rest : (a.conventionOf file).kind = .rest)
      (member : f ∈ file.functions) (stands : ServiceBehind f.source behind)
      (takes : Takes ClosesService behind text) (again : ClosesAgain ClosesService (afterLiteral behind)) :
      Overruns a file (String.ofList text ++ "/\x7bid\x7d/tags/action")

variable {a : Analyzer} {file : Go.SourceFile}

theorem OneLiteral.unquoted (plain : a.vendor.tree.PlainLiterals) {url : String} (one : a.OneLiteral file url) :
    '"' ∉ url.toList := by
  intro quote
  cases one with
  | endpoint offers => exact offers.unquoted plain quote
  | filled rest offers member invoked stands =>
    rw [replace, String.toList_ofList] at quote
    rcases replaceFrom_chars _ quote with filled | own
    · exact literalOf_unquoted _ (by simpa using filled)
    · exact offers.unquoted plain own
  | helper rest member stands =>
    rw [String.toList_append, String.toList_ofList] at quote
    exact (List.mem_append.mp quote).elim (literalOf_unquoted _) (by decide)

def Settled (a : Analyzer) (file : Go.SourceFile) (url : String) : Prop :=
  a.OneLiteral file url ∨ ('"' ∈ url.toList ∧ a.Overruns file url)

theorem filled_settled {url : String} {f : Go.Function} {package : Package} {i : Invocation} {m : Match}
    (rest : (a.conventionOf file).kind = .rest) (offers : a.vendor.tree.Offers url)
    (member : f ∈ file.functions) (invoked : i ∈ (a.conventionOf file).invocations f.source package)
    (typed : Tag.resourceType.find? i.trailing = some m) :
    a.Settled file (replace (stripQuery url) "\x7bresourceType\x7d" (m.group 0)) := by
  obtain ⟨behind, stands, takes⟩ := resourceType_takes typed
  have text : String.ofList (m.group 0).toList = m.group 0 := String.ofList_toList
  rcases offers_literal offers with literal | ⟨quoted, overruns⟩
  · by_cases again : '"' ∈ (m.group 0).toList
    · -- Without the mark of a resource type there is nothing to fill in.
      rcases replaceFrom_fills "\x7bresourceType\x7d".toList (m.group 0).toList (stripQuery url).toList with
        same | fills
      · have unfilled : replace (stripQuery url) "\x7bresourceType\x7d" (m.group 0) = stripQuery url := by
          rw [replace, same, String.ofList_toList]
        rw [unfilled]
        exact .inl (.endpoint literal)
      · refine .inr ⟨by simpa [replace] using fills _ again, ?_⟩
        have overruns := Overruns.filled rest offers member invoked stands takes (.inr (takes.again again))
        rwa [text] at overruns
    · have filled := OneLiteral.filled rest literal member invoked stands
      rw [← takes.literal ClosesType.quote again, text] at filled
      exact .inl filled
  · refine .inr ⟨?_, ?_⟩
    · have mark : "\x7bresourceType\x7d".toList = '\x7b' :: "resourceType\x7d".toList := rfl
      rw [replace, String.toList_ofList, mark]
      exact replaceFrom_keeps (by decide) quoted
    · have filled := Overruns.filled rest offers member invoked stands takes (.inl overruns)
      rwa [text] at filled

theorem helper_settled {f : Go.Function} {h : Tag.HelperCall} (rest : (a.conventionOf file).kind = .rest)
    (member : f ∈ file.functions) (called : Tag.helperCall? f.source = some h) :
    a.Settled file (Tag.helperRecord h {}).url := by
  obtain ⟨behind, stands, takes⟩ := helper_takes called
  have url : (Tag.helperRecord h {}).url = String.ofList h.serviceType.toList ++ "/\x7bid\x7d/tags/action" := by
    rw [String.ofList_toList]
    rfl
  rw [url]
  by_cases quoted : '"' ∈ h.serviceType.toList
  · refine .inr ⟨?_, .helper rest member stands takes (takes.again quoted)⟩
    rw [String.toList_append, String.toList_ofList]
    exact List.mem_append_left _ quoted
  · rw [takes.literal ClosesService.quote quoted]
    exact .inl (.helper rest member stands)

theorem settled_covers : a.Covers file (a.Settled file) where
  endpoint offers := (offers_literal offers).imp .endpoint (And.imp_right .endpoint)
  filled := filled_settled
  helper := helper_settled

-- In whatever state earlier files have left the packages.
theorem literals_exact (a : Analyzer) (past : List Lookup) (file : Go.SourceFile)
    (plain : a.vendor.tree.PlainLiterals) :
    ∀ c ∈ answer (a.analyze file) (after (a.vendor.lookUpAll past) {}),
      ('"' ∉ c.url.toList ↔ a.OneLiteral file c.url) ∧ ('"' ∈ c.url.toList → a.Overruns file c.url) := by
  intro c member
  have start := (a.vendor.lookUpAll_offered past {} (offered_start _)).2
  rcases (analyze_among settled_covers _ start).1 c member with one | ⟨quoted, overruns⟩
  · have unquoted := one.unquoted plain
    exact ⟨⟨fun _ => one, fun _ => unquoted⟩, fun quoted => absurd quoted unquoted⟩
  · refine ⟨⟨fun unquoted => absurd quoted unquoted, fun one => one.unquoted plain⟩, fun _ => overruns⟩

def tagFiles : List (Path × Body) :=
  [(⟨"v/sdk/tags/requests.go"⟩, .text "func Create(c *T, t string)\x7bc.Post(actionURL(c, t), b)\x7d"),
   (⟨"v/sdk/tags/urls.go"⟩,
    .text "const end = \"action\"\nfunc actionURL(c *T, resourceType string)\x7breturn c.ServiceURL(resourceType, end)\x7d")]

def tagging : Analyzer where
  vendor := ⟨.ofFiles tagFiles, ⟨"v"⟩⟩
  index := {}
  registry := .ofList []
  rest := .of .rest (some "sdk/")
  generated := .of .generated none

def tagged : String :=
  "import \"sdk/tags\"\nfunc set()\x7b\n\ttags.Create(client, \"vpcs\", list(\"a\", \"b\"))\n\tutils.UpdateResourceTags(client, d, \"ports\", id)\n\x7d\n"

-- No string literal of a text has a quote inside.
def PlainStrings (source : String) : Prop :=
  ∀ t ∈ Go.tokens source, t.isString = true → '"' ∉ (t.text.toList.drop 1).dropLast

theorem tagging_plain : tagging.vendor.tree.PlainLiterals :=
  SourceTree.ofFiles_plain (by decide +kernel)

theorem tagged_urls : (Go.SourceFile.ofText ⟨"a.go"⟩ tagged).toOption.map
    (fun file => (answer (tagging.analyze file) {}).map (·.url)) =
      some ["vpcs\", list(\"a/action", "ports/\x7bid\x7d/tags/action"] := by
  decide +kernel

theorem literals_exact_tagged :
    tagging.vendor.tree.PlainLiterals ∧
      ∃ file, (Go.SourceFile.ofText ⟨"a.go"⟩ tagged).toOption = some file ∧
        (answer (tagging.analyze file) (after (tagging.vendor.lookUpAll []) {})).map (·.url) =
          ["vpcs\", list(\"a/action", "ports/\x7bid\x7d/tags/action"] ∧
        ∀ c ∈ answer (tagging.analyze file) (after (tagging.vendor.lookUpAll []) {}),
          ('"' ∉ c.url.toList ↔ tagging.OneLiteral file c.url) ∧
            ('"' ∈ c.url.toList → tagging.Overruns file c.url) := by
  obtain ⟨file, parsed, urls⟩ := Option.map_eq_some_iff.mp tagged_urls
  exact ⟨tagging_plain, file, parsed, urls, literals_exact tagging [] file tagging_plain⟩

-- No literal has a quote inside, and the URL of the first call has two.
theorem further_literal_taken :
    (PlainStrings tagged ∧ ∀ f ∈ tagFiles, ∀ source ∈ f.2.text?, PlainStrings source) ∧
      ∃ file, (Go.SourceFile.ofText ⟨"a.go"⟩ tagged).toOption = some file ∧
        ∃ c ∈ answer (tagging.analyze file) {}, '"' ∈ c.url.toList := by
  refine ⟨⟨by unfold PlainStrings; decide +kernel, by unfold PlainStrings; decide +kernel⟩, ?_⟩
  obtain ⟨file, parsed, urls⟩ := Option.map_eq_some_iff.mp tagged_urls
  have quoted : "vpcs\", list(\"a/action" ∈ (answer (tagging.analyze file) {}).map (·.url) := by
    rw [urls]
    exact List.mem_cons_self
  obtain ⟨c, member, url⟩ := List.mem_map.mp quoted
  exact ⟨file, parsed, c, member, by rw [url]; decide⟩

end Analyzer

end CallAtlas
