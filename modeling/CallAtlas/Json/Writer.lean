import CallAtlas.Data.Tree
import CallAtlas.Text.Basic

namespace CallAtlas.Json

def hexDigit (n : Nat) : Char := if n < 10 then Char.ofNat (48 + n) else Char.ofNat (87 + n)

def escapeChar (c : Char) : List Char :=
  if c == '"' then ['\\', '"']
  else if c == '\\' then ['\\', '\\']
  else if c == '\n' then ['\\', 'n']
  else if c == '\r' then ['\\', 'r']
  else if c == '\t' then ['\\', 't']
  else if c.toNat == 8 then ['\\', 'b']
  else if c.toNat == 12 then ['\\', 'f']
  else if c.toNat < 32 then
    ['\\', 'u', '0', '0', hexDigit (c.toNat / 16), hexDigit (c.toNat % 16)]
  else [c]

def quote (s : String) : String := "\"" ++ String.ofList (s.toList.flatMap escapeChar) ++ "\""

def indent (level : Nat) : String := String.ofList (List.replicate (2 * level) ' ')

-- Lines between brackets; nothing stands between the brackets of an empty collection.
def bracket (opening closing : String) (level : Nat) (items : List String) : String :=
  if items.isEmpty then opening ++ closing
  else
    opening ++ "\n" ++ Text.join ",\n" (items.map (indent (level + 1) ++ ·)) ++ "\n" ++
      indent level ++ closing

mutual

def write (level : Nat) : Tree → String
  | .text s => quote s
  | .list items => bracket "[" "]" level (writeItems (level + 1) items)
  | .record fields => bracket "\x7b" "\x7d" level (writeFields (level + 1) fields)

def writeItems (level : Nat) : List Tree → List String
  | [] => []
  | t :: rest => write level t :: writeItems level rest

def writeFields (level : Nat) : List (String × Tree) → List String
  | [] => []
  | (key, t) :: rest => (quote key ++ ": " ++ write level t) :: writeFields level rest

end

def render (t : Tree) : String := write 0 t

end CallAtlas.Json
