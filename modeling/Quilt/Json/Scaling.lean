import Quilt.Json.NumberReader

namespace Quilt

namespace Binary64

def powerOfTen (n : Nat) : Nat := nearest (Decimal.powerOfTen n) 1

def greatestPower : Nat := 308

def timesPower (bits n : Nat) : Nat :=
  nearest (units bits * units (powerOfTen n)) (unitsPerOne * unitsPerOne)

def overPower (bits n : Nat) : Nat := nearest (units bits) (units (powerOfTen n))

/-- Divides by a power of ten, in steps that a double holds. -/
def shrink (bits n : Nat) : Nat :=
  if n ≤ greatestPower then overPower bits n
  else if bits = 0 then 0
  else shrink (overPower bits greatestPower) (n - greatestPower)
termination_by n
decreasing_by
  simp only [greatestPower] at *
  omega

end Binary64

/-- The coefficient as a double, times or over the power of ten. Either is rounded, so that the
result is not always the nearest double. -/
def Decimal.scaled (d : Decimal) : Nat :=
  let bits := Binary64.nearest d.coefficient 1
  if d.exponent < 0 then Binary64.shrink bits d.exponent.natAbs
  else if d.exponent ≤ Binary64.greatestPower then Binary64.timesPower bits d.exponent.toNat
  else if bits = 0 then 0 else Binary64.infinity

namespace Json.Numeral

/-- Takes digits into a word up to the first that it has no room for, and counts them. -/
def takeDigits (word : Nat) : List Char → Nat × Nat
  | [] => (word, 0)
  | d :: ds =>
    let next := 10 * word + (d.toNat - '0'.toNat)
    if next < UInt64.size then
      let (word, count) := takeDigits next ds
      (word, count + 1)
    else (word, 0)

/-- The number as far as a word holds its digits. Those of the whole part that it has no room for
count as zeros. -/
def leading (n : Numeral) : Decimal :=
  let digits := Nat.toDigits 10 n.whole
  let (whole, count) := takeDigits 0 digits
  let (coefficient, places) := takeDigits whole n.fraction
  ⟨coefficient, n.exponent.getD 0 + (digits.length - count : Nat) - places⟩

end Json.Numeral

instance : Json.NumberReader where
  read n := Binary64.ofMagnitude n.negative n.leading.scaled

end Quilt
