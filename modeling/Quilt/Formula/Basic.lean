import Quilt.ColorState
import Quilt.Number.Decimal

namespace Quilt

/-- Division by zero of either sign leaves the left operand as it is. -/
def Op.apply (op : Op) (left right : Float) : Float :=
  match op with
  | .add => left + right
  | .sub => left - right
  | .mul => left * right
  | .div => if right == 0 then left else left / right

inductive Operand where
  | component (channel : Channel) (slot : Nat)
  | literal (value : Float)
deriving DecidableEq, Repr

def Operand.eval (s : ColorState) : Operand → Float
  | .component channel slot => (s.slot slot).get channel
  | .literal value => value

structure Chain where
  head : Operand
  tail : List (Op × Operand)
deriving DecidableEq, Repr

namespace Chain

def evalFrom (s : ColorState) (value : Float) (tail : List (Op × Operand)) : Float :=
  tail.foldl (fun acc link => link.1.apply acc (link.2.eval s)) value

def eval (s : ColorState) (c : Chain) : Float := evalFrom s (c.head.eval s) c.tail

def operands (c : Chain) : List Operand := c.head :: c.tail.map (·.2)

end Chain

structure Formula where
  source : String
  chain : Chain
deriving DecidableEq, Repr

def Formula.eval (s : ColorState) (f : Formula) : Float := f.chain.eval s

end Quilt
