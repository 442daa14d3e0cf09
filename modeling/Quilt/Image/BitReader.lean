namespace Quilt

structure BitSource where
  bytes : ByteArray
  position : Nat

abbrev BitReader := StateT BitSource Option

namespace BitReader

def read? {α : Type} (reader : BitReader α) (bytes : ByteArray) : Option α :=
  (reader.run ⟨bytes, 0⟩).map (·.1)

/-- The next bit, where the low bit of a byte is the first. -/
def bit : BitReader Nat := fun s =>
  (s.bytes[s.position / 8]?).map fun b =>
    (b.toNat >>> (s.position % 8) % 2, { s with position := s.position + 1 })

/-- The next bit, where the high bit of a byte is the first. -/
def highBit : BitReader Nat := fun s =>
  (s.bytes[s.position / 8]?).map fun b =>
    (b.toNat >>> (7 - s.position % 8) % 2, { s with position := s.position + 1 })

def number : Nat → BitReader Nat
  | 0 => return 0
  | n + 1 => do
    let low ← bit
    let high ← number n
    return low + 2 * high

def highNumberFrom (known : Nat) : Nat → BitReader Nat
  | 0 => return known
  | n + 1 => do highNumberFrom (2 * known + (← highBit)) n

def highNumber (n : Nat) : BitReader Nat := highNumberFrom 0 n

def skipToByte : BitReader Unit :=
  modify fun s => { s with position := (s.position + 7) / 8 * 8 }

end BitReader

end Quilt
