import CallAtlas.Text.Basic
import CallAtlas.Text.Utf8

namespace CallAtlas

inductive Body where
  | text (content : String)
  | raw (bytes : List UInt8)
  deriving Repr, DecidableEq

namespace Body

def decode : Body → Except Text.Utf8.DecodeError String
  | .text content => .ok content
  | .raw bytes => Text.Utf8.decode bytes

def text? (b : Body) : Option String := b.decode.toOption

def validPart : Body → String
  | .text content => content
  | .raw bytes => Text.Utf8.validPart bytes

def bytes : Body → List UInt8
  | .text content => content.toUTF8.toList
  | .raw bytes => bytes

def byteLines : List UInt8 → List (List UInt8)
  | [] => []
  | b :: rest =>
    if b == 10 then [b] :: byteLines rest
    else
      match byteLines rest with
      | [] => [[b]]
      | line :: more => (b :: line) :: more

def decodeLines : List (List UInt8) → List String
  | [] => []
  | line :: rest =>
    match Text.Utf8.decode line with
    | .ok s => s :: decodeLines rest
    | .error _ => []

-- A line without its end: a line feed, and a carriage return before it.
def dropLineEnd (line : String) : String :=
  match Text.stripEnd? line "\n" with
  | some rest => (Text.stripEnd? rest "\r").getD rest
  | none => line

def lines (b : Body) : List String := (decodeLines (byteLines b.bytes)).map dropLineEnd

end Body

end CallAtlas
