import Quilt.Image.BitReader

namespace Quilt.Lzw

/-- How codes are written. -/
structure Style where
  symbolBits : Nat
  highFirst : Bool
  /-- Whether codes get another bit one code earlier than they have to. -/
  isEarly : Bool
deriving DecidableEq, Repr

namespace Style

def clearCode (s : Style) : Nat := 1 <<< s.symbolBits

def endCode (s : Style) : Nat := s.clearCode + 1

def startTable (s : Style) : Array (List UInt8) :=
  ((List.range s.clearCode).map fun n => [n.toUInt8]).toArray ++ #[[], []]

def codeBits (s : Style) (tableSize : Nat) : Nat :=
  let reach := if s.isEarly then tableSize + 1 else tableSize
  if tableSize ≤ s.endCode + 1 then s.symbolBits + 1 else min 12 (Nat.log2 reach + 1)

def code (s : Style) (tableSize : Nat) : BitReader Nat :=
  let bits := s.codeBits tableSize
  if s.highFirst then BitReader.highNumber bits else BitReader.number bits

end Style

def tableLimit : Nat := 4096

/-- The word of a code, given the word before it. The code next in the table stands for that word
with its first symbol once more. Words have their last symbol first. -/
def word? (table : Array (List UInt8)) (last : List UInt8) (code : Nat) : Option (List UInt8) :=
  if code < table.size then table[code]?
  else if code = table.size ∧ !last.isEmpty then last.getLast?.map (· :: last)
  else none

/-- Reads codes until there are `wanted` symbols, the last one first. Every code takes a bit, which
bounds their number. -/
def symbolsFrom (s : Style) (wanted : Nat) (table : Array (List UInt8)) (last out : List UInt8)
    (found : Nat) : Nat → BitReader (List UInt8)
  | 0 => failure
  | bound + 1 =>
    if wanted ≤ found then return out.drop (found - wanted)
    else do
      let code ← s.code table.size
      if code = s.clearCode then symbolsFrom s wanted s.startTable [] out found bound
      else if code = s.endCode then failure
      else
        let word ← word? table last code
        let table := match last, word.getLast? with
          | _ :: _, some first =>
            if table.size < tableLimit then table.push (first :: last) else table
          | _, _ => table
        symbolsFrom s wanted table word (word ++ out) (found + word.length) bound

def symbols? (s : Style) (wanted : Nat) (bytes : List UInt8) : Option (List UInt8) :=
  let bound := 8 * bytes.length + 1
  ((symbolsFrom s wanted s.startTable [] [] 0 bound).read? ⟨bytes.toArray⟩).map List.reverse

end Quilt.Lzw
