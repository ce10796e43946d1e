import CallAtlas.Text.Basic
import CallAtlas.Text.Case

namespace CallAtlas

inductive Method where
  | get
  | post
  | put
  | patch
  | delete
  | head
  deriving Repr, DecidableEq

namespace Method

def text : Method → String
  | .get => "get"
  | .post => "post"
  | .put => "put"
  | .patch => "patch"
  | .delete => "delete"
  | .head => "head"

def all : List Method := [.get, .post, .put, .patch, .delete, .head]

def ofText? (s : String) : Option Method := all.find? fun m => m.text == Text.toLower s

def unsupported (s : String) : String := s!"unsupported HTTP method: {s}"

-- The method behind a client's verb; every verb that begins with `DeleteWith` deletes.
def ofVerb? (verb : String) : Option Method :=
  if Text.startsWith verb "DeleteWith" then some .delete else ofText? verb

end Method

end CallAtlas
