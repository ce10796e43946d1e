import CallAtlas.Go.Grammar.Nonterminal
import CallAtlas.Go.Token

namespace CallAtlas.Go

open Grammar

def Token.isMark (t : Token) (s : String) : Bool := t.kind == .mark && t.text == s

def Token.isWord (t : Token) (s : String) : Bool := t.kind == .word && t.text == s

def Token.isString (t : Token) : Bool := t.kind == .interpreted || t.kind == .raw

def Token.opens (t : Token) : Bool := ["(", "[", "\x7b"].any t.isMark

def Token.closes (t : Token) : Bool := [")", "]", "\x7d"].any t.isMark

-- A token that a rule can read by itself.
def Token.single (t : Token) : Bool :=
  t.kind != .eof && t.kind != .stray && !t.opens && !t.closes

-- A rule that failed has read nothing. Brackets are read in pairs around another rule, so that
-- no rule reads past the bracket that closes what it stands in.
inductive Rule : Type → Type 1 where
  | give {α : Type} (a : α) : Rule α
  | andThen {α β : Type} (first : Rule α) (further : α → Rule β) : Rule β
  | fail {α : Type} : Rule α
  -- The token after `n` others, unless one of these is a closing bracket.
  | peekAt (n : Nat) : Rule Token
  | stop : Rule Nat
  | next : Rule Token
  -- Makes two of the next mark if it is one of these pairs.
  | split (pairs : List String) : Rule Unit
  | passNewline : Rule Unit
  | call (n : Nonterminal) : Rule n.Answer
  | orTry {α : Type} (first second : Rule α) : Rule α
  -- Takes `step` again and again until it declines.
  | loop {α : Type} (a : α) (step : α → Rule (Option α)) : Rule α
  | enclosed {α : Type} (opening closing : String) (inner : Rule α) : Rule α

instance : Monad Rule where
  pure := .give
  bind := .andThen

-- The tokens still to be read, and the byte position where the last token read ended.
structure Input where
  tokens : List Token
  stop : Nat := 0

inductive Attempt (α : Type) where
  | done (a : α)
  | failed
  -- There was no more room.
  | starved

def Attempt.ofOption {α : Type} : Option α → Attempt α
  | some a => .done a
  | none => .failed

def Attempt.bind {α β : Type} : Attempt α → (α → Attempt β) → Attempt β
  | .done a, f => f a
  | .failed, _ => .failed
  | .starved, _ => .starved

-- Positions and lines are counted from those of the declaration that is read.
structure Setting where
  start : Nat
  line : Nat

def Setting.sees (s : Setting) (t : Token) : Token :=
  { t with start := t.start - s.start, stop := t.stop - s.start, line := t.line - s.line }

def ahead : Nat → List Token → Option Token
  | _, [] => none
  | 0, t :: _ => some t
  | n + 1, t :: rest => if t.closes then none else ahead n rest

def firstHalf (t : Token) (a : Char) : Token :=
  { t with kind := .mark, text := String.singleton a, stop := t.start + a.utf8Size, plain := nofun }

def secondHalf (t : Token) (a b : Char) : Token :=
  { t with
    kind := .mark, text := String.singleton b, start := t.start + a.utf8Size, newline := false, comments := []
    plain := nofun }

-- The two characters of a mark, unless one of them is a bracket.
def halves (t : Token) : List Token :=
  match t.text.toList with
  | [a, b] => if (firstHalf t a).single && (secondHalf t a b).single then [firstHalf t a, secondHalf t a b] else [t]
  | _ => [t]

def Input.take? (input : Input) (fits : Token → Bool) : Option (Token × Input) :=
  match input.tokens with
  | [] => none
  | t :: rest => if fits t then some (t, ⟨rest, t.stop⟩) else none

-- Puts other tokens in place of the next one.
def Input.replace? (input : Input) (f : Token → List Token) : Option Input :=
  match input.tokens with
  | [] => none
  | t :: rest => some { input with tokens := f t ++ rest }

-- How often rules may be repeated: more often than tokens can be read of a text whose bytes are counted
-- in 32 bits.
def room : Nat := Nat.pow 2 33 + 8

def repeatStep {α : Type} (step : α → Input → Attempt (Option α × Input)) :
    Nat → α → Input → Attempt (α × Input)
  | 0, _, _ => .starved
  | n + 1, a, input =>
    (step a input).bind fun
      | (some b, rest) => repeatStep step n b rest
      | (none, rest) => .done (a, rest)

abbrev Calls := (n : Nonterminal) → Input → Attempt (n.Answer × Input)

namespace Rule

def run (s : Setting) (calls : Calls) : {α : Type} → Rule α → Input → Attempt (α × Input)
  | _, .give a, input => .done (a, input)
  | _, .andThen first further, input =>
    (first.run s calls input).bind fun r => (further r.1).run s calls r.2
  | _, .fail, _ => .failed
  | _, .peekAt n, input =>
    .done (s.sees ((ahead n input.tokens).getD (.ending 0 0 false [])), input)
  | _, .stop, input => .done (input.stop - s.start, input)
  | _, .next, input =>
    .ofOption ((input.take? Token.single).map fun taken => (s.sees taken.1, taken.2))
  | _, .split pairs, input =>
    .ofOption ((input.replace? fun t => if pairs.any t.isMark then halves t else [t]).map ((), ·))
  | _, .passNewline, input =>
    .ofOption ((input.replace? fun t => [{ t with newline := false }]).map ((), ·))
  | _, .call n, input => calls n input
  | _, .orTry first second, input =>
    match first.run s calls input with
    | .failed => second.run s calls input
    | r => r
  | _, .loop a step, input => repeatStep (fun a => (step a).run s calls) room a input
  | _, .enclosed opening closing inner, input =>
    (Attempt.ofOption (input.take? fun t => t.isMark opening && t.opens)).bind fun opened =>
      (inner.run s calls opened.2).bind fun r =>
        (Attempt.ofOption (r.2.take? fun t => t.isMark closing && t.closes)).bind fun closed =>
          .done (r.1, closed.2)

def peek : Rule Token := peekAt 0

def guardThat (b : Bool) : Rule Unit := if b then pure () else fail

def mark (s : String) : Rule Unit := do
  let t ← next
  guardThat (t.isMark s)

def keyword (s : String) : Rule Unit := do
  let t ← next
  guardThat (t.isWord s)

def name : Rule Token := do
  let t ← next
  guardThat (t.kind == .word)
  return t

def optMark (s : String) : Rule Bool := do
  if (← peek).isMark s then
    let _ ← next
    return true
  else return false

-- Whether a rule could be taken.
def tries (r : Rule Unit) : Rule Bool :=
  orTry
    (do
      r
      return true)
    (pure false)

def terminator : Rule Unit := do
  let t ← peek
  if t.newline then passNewline
  else if t.isMark ";" || t.isMark "\x00" then
    let _ ← next
  else fail

end Rule

end CallAtlas.Go
