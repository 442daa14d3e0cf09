import Quilt.Formula.Basic

namespace Quilt

structure ColorFormula where
  red : Formula
  green : Formula
  blue : Formula
deriving DecidableEq, Repr

namespace ColorFormula

def get (f : ColorFormula) : Channel → Formula
  | .red => f.red
  | .green => f.green
  | .blue => f.blue

def eval (s : ColorState) (f : ColorFormula) : Color :=
  .ofChannels fun channel => (f.get channel).eval s

end ColorFormula

inductive Cell where
  | arithmetic (outputs : List ColorFormula)
  | selection (slots : List Nat)
deriving DecidableEq, Repr

namespace Cell

def arity : Cell → Nat
  | arithmetic outputs => outputs.length
  | selection slots => slots.length

/-- All outputs read the state as it was before the step. -/
def apply (s : ColorState) : Cell → ColorState
  | arithmetic outputs => ⟨outputs.map (·.eval s)⟩
  | selection slots => s.select slots

def checkColorCount (n : Nat) : Except Error Unit :=
  if n = 0 ∨ maxColors < n then .error (.colorCount n) else .ok ()

def identity (n : Nat) : Except Error Cell := do
  checkColorCount n
  return selection (List.range n)

@[simp] theorem size_apply (s : ColorState) (c : Cell) : (c.apply s).size = c.arity := by
  cases c <;> simp [apply, arity, ColorState.size, ColorState.select]

end Cell

end Quilt
