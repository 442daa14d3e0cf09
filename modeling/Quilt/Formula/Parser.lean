import Quilt.Formula.Basic

namespace Quilt.Formula

def digitValue (c : Char) : Nat := c.toNat - '0'.toNat

/-- The double nearest to the number that a run of digits writes, infinity if it is too great. -/
def readLiteral (digits : List Char) : Float :=
  Binary64.ofMagnitude false (Binary64.nearest (Nat.ofDigitChars 10 digits 0) 1)

def readOperand (numcolors : Nat) (t : Token) : Except Error Operand :=
  match t.kind with
  | .component channel digit =>
    if digitValue digit < numcolors then .ok (.component channel (digitValue digit))
    else .error ⟨t.start, .unknownSlot channel (digitValue digit) numcolors⟩
  | .number digits => .ok (.literal (readLiteral digits))
  | .operator op => .error ⟨t.start, .missingOperand (some op)⟩
  | .finish => .error ⟨t.start, .missingOperand none⟩

def readTail (numcolors : Nat) : List Token → Except Error (List (Op × Operand))
  | [] => .ok []
  | ⟨.finish, _, _⟩ :: _ => .ok []
  | ⟨.operator op, _, _⟩ :: value :: rest => do
    let operand ← readOperand numcolors value
    let tail ← readTail numcolors rest
    return (op, operand) :: tail
  | t :: _ => .error ⟨t.start, .missingOperator t.kind.text⟩

def readChain (numcolors : Nat) : List Token → Except Error Chain
  | [] => .error ⟨0, .missingOperand none⟩
  | value :: rest => do
    let head ← readOperand numcolors value
    let tail ← readTail numcolors rest
    return ⟨head, tail⟩

/-- Faults of the tokens come before faults of their order. -/
def compile (numcolors : Nat) (source : String) : Except Error Formula := do
  let ts ← tokens source
  let chain ← readChain numcolors ts
  return ⟨source, chain⟩

end Quilt.Formula
