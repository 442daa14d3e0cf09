import Quilt.Number.Decimal
import Quilt.Text.Digits

namespace Quilt.Json

/-- A sign, a whole part, the digits after the point and an exponent. Only whole numbers have
neither of the last two. -/
structure Numeral where
  negative : Bool
  whole : Nat
  fraction : List Char
  exponent : Option Int
deriving DecidableEq, Repr

namespace Numeral

def ofNat (n : Nat) : Numeral := ⟨false, n, [], none⟩

/-- The natural number that the numeral is, if it is written as one. A sign rules it out. -/
def toNat? (n : Numeral) : Option Nat :=
  if !n.negative && n.fraction.isEmpty && n.exponent.isNone then some n.whole else none

/-- The decimal exponents of a leading digit from which on and up to which there is no exponent. -/
def leastPlainExponent : Int := -5

def greatestPlainExponent : Int := 15

def plain (negative : Bool) (d : Decimal) : Numeral :=
  if 0 ≤ d.exponent then
    ⟨negative, d.coefficient * Decimal.powerOfTen d.exponent.toNat, ['0'], none⟩
  else
    let places := (-d.exponent).toNat
    let unit := Decimal.powerOfTen places
    ⟨negative, d.coefficient / unit, Text.paddedDigits 10 places (d.coefficient % unit), none⟩

def scientific (negative : Bool) (d : Decimal) : Numeral :=
  let places := Decimal.digitCount d.coefficient - 1
  let unit := Decimal.powerOfTen places
  ⟨negative, d.coefficient / unit,
    if places = 0 then [] else Text.paddedDigits 10 places (d.coefficient % unit),
    some (d.exponent + places)⟩

/-- The fewest digits that read back as the double. -/
def ofFloat (x : Float) : Numeral :=
  let d := Decimal.shortest (Binary64.magnitude x)
  let leading := d.exponent + (Decimal.digitCount d.coefficient - 1 : Nat)
  if leastPlainExponent ≤ leading ∧ leading ≤ greatestPlainExponent then
    plain (Binary64.isNegative x) d
  else scientific (Binary64.isNegative x) d

def exponentText (e : Int) : List Char :=
  'e' :: (if e < 0 then '-' else '+') :: Nat.toDigits 10 e.natAbs

def text (n : Numeral) : List Char :=
  (if n.negative then ['-'] else []) ++ Nat.toDigits 10 n.whole ++
    (if n.fraction.isEmpty then [] else '.' :: n.fraction) ++
    (n.exponent.map exponentText).getD []

end Numeral

end Quilt.Json
