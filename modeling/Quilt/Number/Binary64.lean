namespace Quilt.Binary64

def signBit : Nat := 0x8000000000000000

/-- The bit pattern of positive infinity. The patterns below it are the finite magnitudes. -/
def infinity : Nat := 0x7FF0000000000000

/-- The least significand of a normal number, and the step from one exponent to the next. -/
def leadingBit : Nat := 0x10000000000000

def magnitude (x : Float) : Nat := x.toBits.toNat % signBit

def isNegative (x : Float) : Bool := decide (signBit ≤ x.toBits.toNat)

def isFinite (x : Float) : Bool := decide (magnitude x < infinity)

def ofMagnitude (negative : Bool) (bits : Nat) : Float :=
  Float.ofBits (UInt64.ofNat (if negative then bits + signBit else bits))

/-- The leading bit is implicit from the first normal number on. -/
def significand (bits : Nat) : Nat :=
  if bits < leadingBit then bits else leadingBit + bits % leadingBit

def scale (bits : Nat) : Nat := bits / leadingBit - 1

/-- A finite magnitude as a multiple of the least positive double. -/
def units (bits : Nat) : Nat := significand bits <<< scale bits

def unitsPerOne : Nat := 1 <<< 1074

def bitLength (n : Nat) : Nat := if n = 0 then 0 else n.log2 + 1

/-- The whole number nearest to `num / den`, the even one of two that are equally near. -/
def roundHalfEven (num den : Nat) : Nat :=
  let q := num / den
  let r := num % den
  if 2 * r < den then q else if den < 2 * r then q + 1 else q + q % 2

/-- The magnitude nearest to `num / den`, ties to the even pattern, infinity from half a step above
the greatest finite double on. A significand that rounds up to twice the leading bit carries into the
exponent. -/
def nearest (num den : Nat) : Nat :=
  let scaled := num * unitsPerOne
  let k := bitLength (scaled / (den * (2 * leadingBit)))
  min infinity (k * leadingBit + roundHalfEven scaled (den <<< k))

end Quilt.Binary64
