import CallAtlas.Call.Basic
import CallAtlas.Go.SourceFile
import CallAtlas.Notice
import CallAtlas.Text.Pattern

namespace CallAtlas.ApiComment

open CallAtlas.Text

structure Conflict where
  url : String
  method : Method
  first : String
  second : String
  deriving Repr, DecidableEq

def Conflict.message (c : Conflict) : String :=
  s!"{c.method.text} {c.url} is annotated as both {c.first} and {c.second}"

-- `// API: PRODUCT METHOD url`.
def comment : Pattern :=
  [word "//", .many isBlank, word "API:", .many isBlank, .opens, .many Pattern.notNewline, .closes]

inductive Line where
  | none
  | malformed
  | badMethod (text : String)
  | call (product : String) (method : Method) (url : String)
  deriving Repr

def readLine (line : String) : Line :=
  match comment.find? line with
  | .none => .none
  | some m =>
    match fields (m.group 0) with
    | [product, method, url] =>
      match Method.ofText? method with
      | some verb => .call product verb url
      | .none => .badMethod method
    | _ => .malformed

def record (product : String) (method : Method) (url : String) : Call :=
  { url, method, service := Service.named product, origin := .comment }

-- Reads lines one after the other; `found` are the calls of the lines before, last first.
def readLines (path : Path) : Nat → List String → List Call → Noted (Except Conflict (List Call))
  | _, [], found => pure (.ok found.reverse)
  | n, line :: rest, found =>
    match readLine line with
    | .none => readLines path (n + 1) rest found
    | .malformed => do
      Noted.warn s!"Skipping malformed API annotation at {path.text}:{n}: {trim line}"
      readLines path (n + 1) rest found
    | .badMethod text => do
      Noted.warn s!"{path.text}:{n}: {Method.unsupported text}"
      readLines path (n + 1) rest found
    | .call product method url =>
      match found.reverse.find? fun c => c.url == url && c.method == method with
      | some earlier =>
        if earlier.service.name != product then
          pure (.error ⟨url, method, earlier.service.name, product⟩)
        else readLines path (n + 1) rest (record product method url :: found)
      | .none => readLines path (n + 1) rest (record product method url :: found)

def calls (file : Go.SourceFile) : Noted (Except Conflict (List Call)) :=
  readLines file.path 1 (lines file.source) []

end CallAtlas.ApiComment
