namespace CallAtlas.Text.Utf8

-- Why bytes are not a text: after `validUpTo` bytes stand `length` bytes that begin no character,
-- or, without a length, a character that the end of the input cuts short.
structure DecodeError where
  validUpTo : Nat
  length : Option Nat
  deriving Repr, DecidableEq

def DecodeError.message (e : DecodeError) : String :=
  match e.length with
  | some n => s!"invalid utf-8 sequence of {n} bytes from index {e.validUpTo}"
  | none => s!"incomplete utf-8 byte sequence from index {e.validUpTo}"

inductive Lead where
  | char (c : Char) (size : Nat)
  | wrong (length : Nat)
  | short
  deriving Repr

def isTail (b : UInt8) : Bool := 0x80 ≤ b && b ≤ 0xBF

def secondRange (first : UInt8) : UInt8 × UInt8 :=
  if first == 0xE0 then (0xA0, 0xBF)
  else if first == 0xED then (0x80, 0x9F)
  else if first == 0xF0 then (0x90, 0xBF)
  else if first == 0xF4 then (0x80, 0x8F)
  else (0x80, 0xBF)

def isSecond (first b : UInt8) : Bool :=
  let range := secondRange first
  range.1 ≤ b && b ≤ range.2

def lead (first : UInt8) (rest : List UInt8) : Lead :=
  let n := first.toNat
  if n < 0x80 then .char (Char.ofNat n) 1
  else if n < 0xC2 || n > 0xF4 then .wrong 1
  else
    match rest with
    | [] => .short
    | b :: rest =>
      if n < 0xE0 then
        if isTail b then .char (Char.ofNat ((n - 0xC0) * 64 + (b.toNat - 0x80))) 2 else .wrong 1
      else if !isSecond first b then .wrong 1
      else
        match rest with
        | [] => .short
        | c :: rest =>
          if !isTail c then .wrong 2
          else if n < 0xF0 then
            .char (Char.ofNat ((n - 0xE0) * 4096 + (b.toNat - 0x80) * 64 + (c.toNat - 0x80))) 3
          else
            match rest with
            | [] => .short
            | d :: _ =>
              if !isTail d then .wrong 3
              else
                .char
                  (Char.ofNat ((n - 0xF0) * 262144 + (b.toNat - 0x80) * 4096 +
                    (c.toNat - 0x80) * 64 + (d.toNat - 0x80)))
                  4

-- The characters up to the first fault, and that fault. `skip` bytes belong to the character read
-- last.
def decodeFrom : Nat → Nat → List UInt8 → List Char × Option DecodeError
  | _, _, [] => ([], none)
  | skip + 1, at_, _ :: rest => decodeFrom skip (at_ + 1) rest
  | 0, at_, first :: rest =>
    match lead first rest with
    | .char c size =>
      let (chars, fault) := decodeFrom (size - 1) (at_ + 1) rest
      (c :: chars, fault)
    | .wrong length => ([], some ⟨at_, some length⟩)
    | .short => ([], some ⟨at_, none⟩)

def decode (bytes : List UInt8) : Except DecodeError String :=
  match decodeFrom 0 0 bytes with
  | (chars, none) => .ok (String.ofList chars)
  | (_, some fault) => .error fault

def validPart (bytes : List UInt8) : String := String.ofList (decodeFrom 0 0 bytes).1

end CallAtlas.Text.Utf8
