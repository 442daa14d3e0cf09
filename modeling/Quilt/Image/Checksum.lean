namespace Quilt.Checksum

def crcShift (r : UInt32) : UInt32 :=
  if r &&& 1 = 1 then (r >>> 1) ^^^ 0xEDB88320 else r >>> 1

def crcByte (r : UInt32) (b : UInt8) : UInt32 :=
  Nat.repeat crcShift 8 (r ^^^ b.toUInt32)

def crc32 (bytes : ByteArray) : UInt32 := bytes.foldl crcByte 0xFFFFFFFF ^^^ 0xFFFFFFFF

/-- The sum of the bytes after a leading one, and the sum of those sums. -/
def adler32 (bytes : ByteArray) : Nat :=
  let (a, b) := bytes.foldl (fun (a, b) byte =>
    let a := (a + byte.toNat) % 65521
    (a, (b + a) % 65521)) (1, 0)
  b * 65536 + a

end Quilt.Checksum
