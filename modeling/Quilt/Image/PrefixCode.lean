import Quilt.Image.BitReader

namespace Quilt

/-- A canonical code: how many codewords each length has, from no bits on, and the symbols by
length. -/
structure PrefixCode where
  counts : List Nat
  symbols : Array Nat

namespace PrefixCode

def ofLengths (lengths : List Nat) : PrefixCode :=
  let sizes := (List.range 15).map (· + 1)
  ⟨0 :: sizes.map lengths.count,
    (sizes.flatMap fun size => lengths.zipIdx.filterMap fun (length, symbol) =>
      if length = size then some symbol else none).toArray⟩

/-- Whether the codewords of these lengths leave nothing out and do not overlap. -/
def isComplete (lengths : List Nat) : Bool :=
  (lengths.filter (0 < ·)).foldl (fun sum length => sum + 1 <<< (15 - length)) 0 == 1 <<< 15

def decodeFrom (symbols : Array Nat) : List Nat → Nat → Nat → Nat → BitReader Nat
  | [], _, _, _ => failure
  | count :: counts, code, first, index => do
    if code < first + count then
      match symbols[index + (code - first)]? with
      | some symbol => return symbol
      | none => failure
    else
      let code := 2 * code + (← BitReader.bit)
      decodeFrom symbols counts code (2 * (first + count)) (index + count)

def decode (c : PrefixCode) : BitReader Nat := decodeFrom c.symbols c.counts 0 0 0

end PrefixCode

end Quilt
