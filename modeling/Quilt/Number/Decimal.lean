import Quilt.Number.Binary64

namespace Quilt

/-- The number `coefficient * 10 ^ exponent`. -/
structure Decimal where
  coefficient : Nat
  exponent : Int
deriving DecidableEq, Repr

namespace Decimal

def powerOfTen (n : Nat) : Nat := Nat.pow 10 n

def digitCount (n : Nat) : Nat := (Nat.toDigits 10 n).length

def stripZeros (coefficient : Nat) (exponent : Int) : Decimal :=
  if coefficient ≠ 0 ∧ coefficient % 10 = 0 then stripZeros (coefficient / 10) (exponent + 1)
  else ⟨coefficient, exponent⟩
termination_by coefficient
decreasing_by omega

/-- The nearest double. An exponent far outside the range of the doubles is decided without writing
the power of ten out. -/
def toMagnitude (d : Decimal) : Nat :=
  if d.coefficient = 0 then 0
  else if 0 ≤ d.exponent then
    if 310 ≤ d.exponent then Binary64.infinity
    else Binary64.nearest (d.coefficient * powerOfTen d.exponent.toNat) 1
  else
    let places := (-d.exponent).toNat
    if digitCount d.coefficient + 330 ≤ places then 0
    else Binary64.nearest d.coefficient (powerOfTen places)

/-- The exponent of the leading digit of a finite magnitude above zero. The least double is above
`10 ^ -324`. -/
def leadingExponent (bits : Nat) : Int :=
  (digitCount (Binary64.units bits * powerOfTen 324 / Binary64.unitsPerOne) : Int) - 325

/-- The multiple of `10 ^ exponent` next to a magnitude that reads back as it: the nearer of the
two neighbours when both do, the even one in a tie. -/
def onGrid? (bits : Nat) (exponent : Int) : Option Nat :=
  let num := Binary64.units bits * powerOfTen (-exponent).toNat
  let den := Binary64.unitsPerOne * powerOfTen exponent.toNat
  let low := num / den
  let readsBack (c : Nat) := toMagnitude ⟨c, exponent⟩ == bits
  if readsBack low then
    if readsBack (low + 1) then some (Binary64.roundHalfEven num den) else some low
  else if readsBack (low + 1) then some (low + 1) else none

/-- Tries the grids of step `10 ^ (n - 1074)` from coarse to fine. A magnitude lies on the last. -/
def search (bits : Nat) : Nat → Decimal
  | 0 => ⟨Binary64.units bits * Nat.pow 5 1074, -1074⟩
  | n + 1 =>
    match onGrid? bits ((n : Int) - 1073) with
    | some c => ⟨c, (n : Int) - 1073⟩
    | none => search bits n

/-- The decimal with the fewest digits that reads back as the given finite magnitude, and of those
the nearest to it. -/
def shortest (bits : Nat) : Decimal :=
  if bits = 0 then ⟨0, 0⟩
  else
    let d := search bits (leadingExponent bits + 1074).toNat
    stripZeros d.coefficient d.exponent

def positional (d : Decimal) : List Char :=
  if 0 ≤ d.exponent then Nat.toDigits 10 (d.coefficient * powerOfTen d.exponent.toNat)
  else
    let digits := Nat.toDigits 10 d.coefficient
    let places := (-d.exponent).toNat
    if places < digits.length then
      digits.take (digits.length - places) ++ '.' :: digits.drop (digits.length - places)
    else '0' :: '.' :: List.replicate (places - digits.length) '0' ++ digits

end Decimal

end Quilt
