import CallAtlas.Text.CharClass

namespace CallAtlas.Text

def after? : List Char → List Char → Option (List Char)
  | [], text => some text
  | _ :: _, [] => none
  | p :: ps, c :: cs => if p = c then after? ps cs else none

def trimStartBy (p : Char → Bool) (text : List Char) : List Char := text.dropWhile p

def trimEndBy (p : Char → Bool) : List Char → List Char
  | [] => []
  | c :: rest =>
    match trimEndBy p rest with
    | [] => if p c then [] else [c]
    | kept => c :: kept

def trimBy (p : Char → Bool) (text : List Char) : List Char := trimEndBy p (trimStartBy p text)

-- The pieces between the characters that `p` accepts; always at least one.
def splitBy (p : Char → Bool) : List Char → List (List Char)
  | [] => [[]]
  | c :: rest =>
    if p c then [] :: splitBy p rest
    else
      match splitBy p rest with
      | [] => [[c]]
      | piece :: pieces => (c :: piece) :: pieces

def fieldsOf (text : List Char) : List (List Char) :=
  (splitBy isBlank text).filter (!·.isEmpty)

def dropReturn : List Char → List Char
  | [] => []
  | [c] => if c = '\r' then [] else [c]
  | c :: rest => c :: dropReturn rest

-- The lines of a text without their ends. A last line feed opens no further line, and a carriage
-- return is part of the line end only before a line feed.
def linesOf : List Char → List (List Char)
  | text =>
    let pieces := splitBy (· == '\n') text
    match pieces.getLast? with
    | some [] => pieces.dropLast.map dropReturn
    | some final => pieces.dropLast.map dropReturn ++ [final]
    | none => []

def occursIn (part : List Char) : List Char → Bool
  | [] => part.isEmpty
  | c :: rest => part.isPrefixOf (c :: rest) || occursIn part rest

theorem occursIn_iff (part text : List Char) : occursIn part text = true ↔ part <:+: text := by
  induction text with
  | nil => simp [occursIn]
  | cons c rest ih =>
    rw [occursIn, Bool.or_eq_true, List.isPrefixOf_iff_prefix, ih, List.infix_cons_iff]

-- Replaces `part`, which is not empty, from the left; `skip` characters of the last occurrence are
-- still to be passed over.
def replaceFrom (part replacement : List Char) : Nat → List Char → List Char
  | _, [] => []
  | skip + 1, _ :: rest => replaceFrom part replacement skip rest
  | 0, c :: rest =>
    if part.isPrefixOf (c :: rest) then
      replacement ++ replaceFrom part replacement (part.length - 1) rest
    else c :: replaceFrom part replacement 0 rest

def trim (s : String) : String := String.ofList (trimBy isBlank s.toList)

def trimStart (s : String) : String := String.ofList (trimStartBy isBlank s.toList)

def trimEnd (s : String) : String := String.ofList (trimEndBy isBlank s.toList)

def trimMatches (p : Char → Bool) (s : String) : String := String.ofList (trimBy p s.toList)

def split (sep : Char) (s : String) : List String :=
  (splitBy (· == sep) s.toList).map String.ofList

def fields (s : String) : List String := (fieldsOf s.toList).map String.ofList

def lines (s : String) : List String := (linesOf s.toList).map String.ofList

def join (sep : String) (parts : List String) : String := sep.intercalate parts

def startsWith (s lead : String) : Bool := lead.toList.isPrefixOf s.toList

def endsWith (s tail : String) : Bool := tail.toList.isSuffixOf s.toList

def contains (s part : String) : Bool := occursIn part.toList s.toList

def containsChar (s : String) (c : Char) : Bool := s.toList.contains c

def stripStart? (s lead : String) : Option String := (after? lead.toList s.toList).map String.ofList

def stripEnd? (s tail : String) : Option String :=
  if endsWith s tail then some (String.ofList (s.toList.take (s.toList.length - tail.toList.length)))
  else none

def replace (s part replacement : String) : String :=
  String.ofList (replaceFrom part.toList replacement.toList 0 s.toList)

def trimEndText (tail : String) (s : String) : String :=
  String.ofList (strip s.toList.length s.toList)
where
  strip : Nat → List Char → List Char
    | 0, text => text
    | n + 1, text =>
      if tail.toList.isEmpty then text
      else if tail.toList.isSuffixOf text then
        strip n (text.take (text.length - tail.toList.length))
      else text

def afterLast (sep : Char) (s : String) : String :=
  String.ofList ((splitBy (· == sep) s.toList).getLastD [])

def splitOnce? (sep : Char) (s : String) : Option (String × String) :=
  let text := s.toList
  match text.dropWhile (· != sep) with
  | [] => none
  | _ :: rest => some (String.ofList (text.takeWhile (· != sep)), String.ofList rest)

def byteLength (text : List Char) : Nat := text.foldl (fun n c => n + c.utf8Size) 0

def takeBytes : Nat → List Char → List Char
  | _, [] => []
  | 0, _ => []
  | n, c :: rest => c :: takeBytes (n - c.utf8Size) rest

def dropBytes : Nat → List Char → List Char
  | _, [] => []
  | 0, text => text
  | n, c :: rest => dropBytes (n - c.utf8Size) rest

def slice (text : List Char) (start stop : Nat) : String :=
  String.ofList (takeBytes (stop - start) (dropBytes start text))

end CallAtlas.Text
