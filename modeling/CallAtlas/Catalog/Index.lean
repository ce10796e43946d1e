import CallAtlas.Data.SortedMap
import CallAtlas.Go.SourceFile
import CallAtlas.Text.Case
import CallAtlas.Text.Pattern

namespace CallAtlas.Catalog

open CallAtlas.Text

-- How constructors name their key: `NewServiceClient("elb", region)` or `NewHcClient(c, region,
-- "aom")`.
inductive Style where
  | service
  | hc
  deriving Repr, DecidableEq

def isNotQuote (c : Char) : Bool := c != '"'

def Style.pattern : Style → Pattern
  | .service =>
    [word "NewServiceClient(\"", .opens, .many isNotQuote, .closes, word "\""]
  | .hc =>
    [word "NewHcClient(", .many Pattern.notNewline, word ", \"", .opens, .many isNotQuote,
     .closes, word "\""]

structure Index where
  keys : SortedMap String String := {}
  deriving Repr

namespace Index

def keyIn? (style : Style) (f : Go.Function) : Option String :=
  (style.pattern.findAll f.source).getLast?.map (·.group 0)

-- A later function of the same name takes the place of an earlier one.
def ingest (index : Index) (file : Go.SourceFile) (style : Style) : Index × Nat :=
  file.functions.foldl
    (fun (now : Index × Nat) f =>
      match keyIn? style f with
      | some key => (⟨now.1.keys.insert f.name key⟩, now.2 + 1)
      | none => now)
    (index, 0)

def category? (index : Index) (constructorName : String) : Option String :=
  index.keys.get? constructorName

def clientSuffix : Pattern :=
  [.start, .opens, .one isWord, .many isWord, .closes, word "Client", .finish]

-- The recorded key, or else the client type's name without its ending, in lower case.
def categoryOrSuffix? (index : Index) (constructorName : String) : Option String :=
  match index.category? constructorName with
  | some key => some key
  | none => (clientSuffix.find? constructorName).map fun m => toLower (m.group 0)

def size (index : Index) : Nat := index.keys.size

end Index

end CallAtlas.Catalog
