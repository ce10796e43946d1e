namespace CallAtlas.Go.Grammar

structure Context where
  -- A line feed ends the expression.
  breaks : Bool := false
  -- The expression may be the whole head of a statement, so that `++`, `--` and `<-` follow.
  head : Bool := false
  -- An opening brace after the expression opens a block.
  blockFollows : Bool := false
  -- A type switch may end the expression.
  switchHead : Bool := false
  -- A type may stand in place of the expression.
  types : Bool := false
  deriving Repr

-- Positions are counted from the beginning of the declaration.
structure Entry where
  keyStart : Nat
  keyStop : Nat
  valueStart : Nat
  valueStop : Nat
  deriving Repr

inductive Shape where
  | interpreted
  | raw
  | integer
  | float
  | composite (entries : List Entry)
  | closure
  | bareType
  | other
  deriving Repr

structure Operand where
  shape : Shape
  start : Nat
  stop : Nat
  deriving Repr

def Operand.isType (o : Operand) : Bool :=
  match o.shape with
  | .bareType => true
  | _ => false

inductive Nonterminal where
  | expr (c : Context)
  | typ (breaks : Bool)
  | block
  | params
  | literal
  -- The flag tells whether `case` and `default` end the statements around; the answer whether the
  -- statement ends in a value.
  | statement (inCase : Bool)
  | ifStatement

def Nonterminal.Answer : Nonterminal → Type
  | .expr _ => Operand
  | .literal => List Entry
  | .statement _ => Bool
  | _ => Unit

end CallAtlas.Go.Grammar
