import CallAtlas.Proofs.Sdk.Trees
import Mathlib.Data.List.Find

namespace CallAtlas.Sdk

open CallAtlas.Text Resolving

namespace Rest

variable {tree : SourceTree}

theorem firstExisting?_name (tree : SourceTree) (dir : Path) (names : List String) :
    firstExisting? tree dir names = (names.find? fun n => tree.isFile (dir.join n)).map dir.join :=
  List.find?_map

theorem find?_isFile_respelled {dir dir' : Path} (placed : tree.Placed) (place : dir.same dir' = true)
    {names : List String} (plain : ∀ n ∈ names, Path.IsName n) :
    names.find? (fun n => tree.isFile (dir'.join n)) = names.find? fun n => tree.isFile (dir.join n) := by
  exact List.find?_congr fun n member => (placed.files dir dir' n place (plain n member)).symm

end Rest

namespace Generated

theorem clientAndMeta?_named (tree : SourceTree) (dir : Path) :
    clientAndMeta? tree dir = do
      let client ← (tree.list dir).reverse.find? (endsWith · "_client.go")
      let described ← (tree.list dir).reverse.find? (endsWith · "_meta.go")
      return (dir.join client, dir.join described) := by
  unfold clientAndMeta?
  dsimp only
  cases (tree.list dir).reverse.find? (endsWith · "_client.go") with
  | none => rfl
  | some client => cases (tree.list dir).reverse.find? (endsWith · "_meta.go") <;> rfl

end Generated

-- The same URLs are fixed in the URL files of the directory under both spellings.
def SameFixed (dir dir' : Path) : Prop :=
  ∀ n ∈ Rest.urlFiles, ∀ f, fixedUrl? (dir.join n) f = fixedUrl? (dir'.join n) f

section
variable {tree : SourceTree} {dir dir' : Path} {s t : State}
variable (placed : tree.Placed) (place : dir.same dir' = true)
include placed place

theorem Rest.resolvePackage_respelled (fixed : SameFixed dir dir')
    (alike : ∀ n ∈ urlFiles, Respelled (dir.join n) (dir'.join n) s t) :
    answer (resolvePackage tree dir) s = answer (resolvePackage tree dir') t := by
  unfold resolvePackage
  simp only [firstExisting?_name, find?_isFile_respelled placed place requestFile_isName,
    find?_isFile_respelled placed place Vendor.urlFile_isName]
  cases requestFound : requestFiles.find? fun n => tree.isFile (dir.join n) with
  | none => rfl
  | some request =>
    cases urlFound : urlFiles.find? fun n => tree.isFile (dir.join n) with
    | none => rfl
    | some url =>
      have requestPlain := requestFile_isName request (List.mem_of_find?_eq_some requestFound)
      have urlName := List.mem_of_find?_eq_some urlFound
      have urlPlain := Vendor.urlFile_isName url urlName
      simp only [Option.map_some]
      have parsed := parseFile_respelled (placed.reads dir dir' request place requestPlain) s t
      have before := alike url urlName
      have read : Respelled (dir.join url) (dir'.join url) (after (parseFile tree (dir.join request)) s)
          (after (parseFile tree (dir'.join request)) t) := by
        simp only [after_parseFile]
        exact ⟨before.marked, before.urls⟩
      simp only [answer_bind, parsed]
      cases answer (parseFile tree (dir.join request)) s with
      | none => simp only [Option.map_none, answer_pure]
      | some file =>
        have direct := directEndpoints_parallel (fixed url urlName) (placed.reads dir dir' url place urlPlain)
          file.functions {}
        simp only [Option.map_some, answer_bind, answer_pure, (direct _ _ read).1]

theorem Generated.resolvePackage_respelled (lists : tree.ListsNames) :
    answer (resolvePackage tree dir) s = answer (resolvePackage tree dir') t := by
  have plain : ∀ tail : String, ".go".toList <:+ tail.toList → ∀ n,
      (tree.list dir).reverse.find? (endsWith · tail) = some n → Path.IsName n := by
    intro tail go n found
    have ends : endsWith n tail = true := by simpa using List.find?_some found
    have listed : n ∈ tree.list dir := List.mem_reverse.mp (List.mem_of_find?_eq_some found)
    exact mayRead_isName lists ⟨endsWith_go ends go, .inr (.inr listed)⟩
  unfold resolvePackage
  simp only [clientAndMeta?_named, ← placed.lists dir dir' place]
  cases clientFound : (tree.list dir).reverse.find? (endsWith · "_client.go") with
  | none => rfl
  | some client =>
    cases metaFound : (tree.list dir).reverse.find? (endsWith · "_meta.go") with
    | none => rfl
    | some described =>
      have clientRead := placed.reads dir dir' client place (plain _ (by decide) client clientFound)
      have metaRead := placed.reads dir dir' described place (plain _ (by decide) described metaFound)
      simp only [Option.bind_eq_bind, Option.bind_some, Option.pure_def, answer_bind,
        parseFile_respelled metaRead s t]
      cases answer (parseFile tree (dir.join described)) s with
      | none => simp only [Option.map_none, answer_pure]
      | some descriptions =>
        simp only [Option.map_some, answer_bind,
          parseFile_respelled clientRead (after (parseFile tree (dir.join described)) s)]
        cases answer (parseFile tree (dir.join client)) (after (parseFile tree (dir.join described)) s) with
        | none => simp only [Option.map_none, answer_pure]
        | some file =>
          simp only [Option.map_some, answer_bind, answer_pure]
          exact congrArg some ((operations_exact ..).1.trans (operations_exact ..).1.symm)

end

theorem Convention.resolvePackage_respelled {c c' : Convention} {tree : SourceTree} {dir dir' : Path}
    {s t : State} (kinds : c.kind = c'.kind) (placed : tree.Placed) (lists : tree.ListsNames)
    (place : dir.same dir' = true) (fixed : SameFixed dir dir')
    (alike : c.kind = .rest → ∀ n ∈ Rest.urlFiles, Respelled (dir.join n) (dir'.join n) s t) :
    answer (c.resolvePackage tree dir) s = answer (c'.resolvePackage tree dir') t := by
  unfold resolvePackage
  rw [← kinds]
  cases kind : c.kind with
  | rest => exact Rest.resolvePackage_respelled placed place fixed (alike kind)
  | generated => exact Generated.resolvePackage_respelled placed place lists

end CallAtlas.Sdk
