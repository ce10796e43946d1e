import CallAtlas.Go.Grammar.Basic

namespace CallAtlas.Go.Grammar

open Rule

def typeElem (breaks : Bool) : Rule Unit := do
  typ breaks
  loop () fun _ => do
    if ← cut breaks then return none
    if ← optMark "|" then
      typ breaks
      return some ()
    else return none

def typeArguments : Rule Unit := enclosed "[" "]" (elements "]" (typeElem false))

def result (breaks : Bool) : Rule Unit := do
  if ← cut breaks then return ()
  let t ← peek
  if t.isMark "(" then params
  else if startsType t then typ breaks
  else return ()

-- The name of a type behind its package.
def selected (breaks : Bool) : Rule Unit := do
  unless ← cut breaks do
    if ← optMark "." then
      let _ ← name

def fieldDeclaration : Rule Unit := do
  let embedded : Rule Unit := do
    let _ ← optMark "*"
    let first ← name
    guardThat (first.kind == .word)
    selected true
    unless ← cut true do
      if (← peek).isMark "[" then typeArguments
  let named : Rule Unit := do
    let _ ← name
    if ← cut true then fail
    loop () fun _ => do
      if ← optMark "," then
        let _ ← name
        return some ()
      else return none
    typ true
  let tagged (body : Rule Unit) : Rule Unit := do
    body
    let t ← peek
    if t.isString && !t.newline then
      let _ ← next
    let t ← peek
    guardThat (t.newline || [";", "\x7d", "\x00"].any t.isMark)
  orTry (tagged named) (tagged embedded)

def structType : Rule Unit := do
  keyword "struct"
  bracedLines fieldDeclaration

def interfaceElem : Rule Unit := do
  let t ← peek
  if t.kind == .word && !typeWords.contains t.text && (← peekAt 1).isMark "(" then
    let _ ← next
    params
    result true
  else typeElem true

def interfaceType : Rule Unit := do
  keyword "interface"
  bracedLines interfaceElem

def mapType (breaks : Bool) : Rule Unit := do
  keyword "map"
  enclosed "[" "]" (typ false)
  typ breaks

def arrayType (breaks implied : Bool) : Rule Bool := do
  let isImplied ← enclosed "[" "]" do
    let t ← peek
    if t.isMark "]" then return false
    if implied && t.isMark "..." && (← peekAt 1).isMark "]" then
      let _ ← next
      return true
    let length ← expr {}
    guardThat !length.isType
    return false
  typ breaks
  return isImplied

def channelType (breaks : Bool) : Rule Unit := do
  if ← optMark "<-" then
    keyword "chan"
    typ breaks
  else
    keyword "chan"
    let _ ← optMark "<-"
    typ breaks

def functionType (breaks : Bool) : Rule Unit := do
  keyword "func"
  params
  result breaks

def instantiated (breaks : Bool) : Rule Unit := do
  unless ← cut breaks do
    if (← peek).isMark "[" then
      let _ ← tries typeArguments

def typeRule (breaks : Bool) : Rule Unit := do
  let t ← peek
  if t.isWord "func" then functionType breaks
  else if t.isWord "map" then mapType breaks
  else if t.isWord "chan" || t.isMark "<-" then channelType breaks
  else if t.isWord "struct" then structType
  else if t.isWord "interface" then interfaceType
  else if t.kind == .word then
    let _ ← next
    selected breaks
    instantiated breaks
  else if t.isMark "*" || t.isMark "~" then
    let _ ← next
    typ breaks
  else if t.isMark "(" then enclosed "(" ")" (typ false)
  else
    let _ ← arrayType breaks false

def parameter : Rule Unit := do
  let t ← peek
  let closed : Rule Unit := do
    let t ← peek
    guardThat (t.isMark "," || t.isMark ")")
  let unnamed : Rule Unit := do
    typ false
    closed
  if t.isMark "..." then
    let _ ← next
    typ false
  else if t.kind == .word && !typeWords.contains t.text then
    let after ← peekAt 1
    if after.isMark "..." then
      let _ ← next
      mark "..."
      typ false
    else if startsType after then
      let named : Rule Unit := do
        let _ ← next
        typ false
        closed
      orTry named unnamed
    else unnamed
  else unnamed

def paramsRule : Rule Unit :=
  enclosed "(" ")" do
    if (← peek).isMark ")" then return ()
    if ← optMark "," then return ()
    elements ")" parameter

def typeParameters : Rule Unit :=
  enclosed "[" "]" do
    loop () fun _ => do
      let _ ← name
      if ← optMark "," then return some ()
      typeElem false
      if (← peek).isMark "," && !(← peekAt 1).isMark "]" then
        let _ ← next
        return some ()
      else
        let _ ← optMark ","
        return none

end CallAtlas.Go.Grammar
