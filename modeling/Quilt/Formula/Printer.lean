import Quilt.Formula.Basic

namespace Quilt

def literalText (value : Float) : List Char :=
  let bits := Binary64.magnitude value
  if bits = Binary64.infinity then "inf".toList
  else (Decimal.shortest bits).positional

def Operand.text : Operand → List Char
  | .component channel slot => channel.letter :: Nat.toDigits 10 slot
  | .literal value => literalText value

def Chain.text (c : Chain) : List Char :=
  c.head.text ++ c.tail.flatMap fun link => link.1.symbol :: link.2.text

def Formula.display (f : Formula) : String := String.ofList f.chain.text

end Quilt
