import CallAtlas.Call.Basic
import CallAtlas.Text.Pattern

namespace CallAtlas.Tag

open CallAtlas.Text

def packageAlias : String := "tags"

structure HelperCall where
  receiver : String
  serviceType : String
  deriving Repr, DecidableEq

def helper : Pattern :=
  [word "utils.UpdateResourceTags(", .opens, .many isWord, .closes, word ",", .one isBlank,
   .opens, .many isWord, .closes, word ",", .one isBlank, word "\"", .opens,
   .many Pattern.notNewline, .closes, word "\",", .one isBlank, .opens,
   .many Pattern.notNewline, .closes, word ")"]

def helperCall? (source : String) : Option HelperCall :=
  (helper.find? source).map fun m => ⟨m.group 0, m.group 2⟩

-- The update that a helper call makes. Its URL carries the project.
def helperRecord (h : HelperCall) (service : Service) : Call :=
  { url := h.serviceType ++ "/\x7bid\x7d/tags/action"
    method := .post
    operationId := "batchUpdate"
    service := { service with withoutProjectId := false }
    origin := .tagHelper }

def resourceType : Pattern :=
  [word ",", .one isBlank, word "\"", .opens, .many Pattern.notNewline, .closes, word "\","]

def fillType (trailing : String) (c : Call) : Call :=
  let c := { c with service := { c.service with withoutProjectId := false } }
  match resourceType.find? trailing with
  | some m => { c with url := replace c.url "\x7bresourceType\x7d" (m.group 0) }
  | none => c

end CallAtlas.Tag
