namespace Quilt

structure Random where
  state : UInt64
deriving DecidableEq, Repr

namespace Random

/-- The golden ratio as a 64-bit fraction, made odd. -/
def step : UInt64 := 0x9E3779B97F4A7C15

def mix (z : UInt64) : UInt64 :=
  let z := (z ^^^ (z >>> 30)) * 0xBF58476D1CE4E5B9
  let z := (z ^^^ (z >>> 27)) * 0x94D049BB133111EB
  z ^^^ (z >>> 31)

def ofSeed (seed : UInt64) : Random := ⟨seed⟩

def next : StateM Random UInt64 := fun r =>
  let state := r.state + step
  (mix state, ⟨state⟩)

def below (n : Nat) : StateM Random Nat := do
  return (← next).toNat % n

/-- The top bit. -/
def coin : StateM Random Bool := do
  return decide (0x8000000000000000 ≤ (← next))

end Random

end Quilt
