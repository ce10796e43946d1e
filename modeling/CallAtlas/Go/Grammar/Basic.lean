import CallAtlas.Go.Rule

namespace CallAtlas.Go.Grammar

open Rule

def typeWords : List String := ["func", "map", "chan", "struct", "interface"]

def operandWords : List String := typeWords ++ ["new", "make", "nil", "true", "false", "iota"]

def startsType (t : Token) : Bool :=
  t.kind == .word || ["*", "[", "(", "<-", "~"].any t.isMark

def expr (c : Context) : Rule Operand := call (.expr c)

def typ (breaks : Bool) : Rule Unit := call (.typ breaks)

def block : Rule Unit := call .block

def params : Rule Unit := call .params

def literal : Rule (List Entry) := call .literal

def statement (inCase : Bool) : Rule Bool := call (.statement inCase)

-- Where what has been read may be whole, a line feed ends it; elsewhere it is a blank.
def cut (breaks : Bool) : Rule Bool := do return breaks && (← peek).newline

def commaList (breaks : Bool) (item : Rule Unit) : Rule Unit := do
  item
  loop () fun _ => do
    if ← cut breaks then return none
    if ← optMark "," then
      item
      return some ()
    else return none

-- Elements up to a closing bracket, before which a comma may stand.
def elements (close : String) (item : Rule Unit) : Rule Unit := do
  item
  loop () fun _ => do
    if ← optMark "," then
      if (← peek).isMark close then return none
      item
      return some ()
    else return none

def bracedLines (item : Rule Unit) : Rule Unit :=
  enclosed "\x7b" "\x7d" do
    unless (← peek).isMark "\x7d" do
      item
      loop () fun _ => do
        if (← peek).isMark "\x7d" && !(← peek).newline then return none
        terminator
        if (← peek).isMark "\x7d" then return none
        item
        return some ()

end CallAtlas.Go.Grammar
