import Quilt.Image.Checksum
import Quilt.Image.PrefixCode

namespace Quilt.Deflate

open BitReader (bit number)

def fixedLiterals : PrefixCode :=
  .ofLengths (List.replicate 144 8 ++ List.replicate 112 9 ++ List.replicate 24 7 ++
    List.replicate 8 8)

def fixedDistances : PrefixCode := .ofLengths (List.replicate 30 5)

/-- The least length of each length symbol, and how many more bits it has. -/
def lengthTable : Array (Nat × Nat) :=
  #[(3, 0), (4, 0), (5, 0), (6, 0), (7, 0), (8, 0), (9, 0), (10, 0), (11, 1), (13, 1), (15, 1),
    (17, 1), (19, 2), (23, 2), (27, 2), (31, 2), (35, 3), (43, 3), (51, 3), (59, 3), (67, 4),
    (83, 4), (99, 4), (115, 4), (131, 5), (163, 5), (195, 5), (227, 5), (258, 0)]

/-- The least distance of each distance symbol, and how many more bits it has. -/
def distanceTable : Array (Nat × Nat) :=
  #[(1, 0), (2, 0), (3, 0), (4, 0), (5, 1), (7, 1), (9, 2), (13, 2), (17, 3), (25, 3), (33, 4),
    (49, 4), (65, 5), (97, 5), (129, 6), (193, 6), (257, 7), (385, 7), (513, 8), (769, 8),
    (1025, 9), (1537, 9), (2049, 10), (3073, 10), (4097, 11), (6145, 11), (8193, 12), (12289, 12),
    (16385, 13), (24577, 13)]

def extended (table : Array (Nat × Nat)) (symbol : Nat) : BitReader Nat := do
  match table[symbol]? with
  | some (least, bits) => return least + (← number bits)
  | none => failure

/-- Appends bytes that stand `distance` back. What is appended may be copied again. -/
def copyBack (distance : Nat) : Nat → ByteArray → Option ByteArray
  | 0, out => some out
  | n + 1, out =>
    if distance ≤ out.size then
      match out[out.size - distance]? with
      | some b => copyBack distance n (out.push b)
      | none => none
    else none

def readSymbols (literals distances : PrefixCode) : Nat → ByteArray → BitReader ByteArray
  | 0, _ => failure
  | bound + 1, out => do
    let symbol ← literals.decode
    if symbol < 256 then readSymbols literals distances bound (out.push symbol.toUInt8)
    else if symbol = 256 then return out
    else
      let length ← extended lengthTable (symbol - 257)
      let distance ← extended distanceTable (← distances.decode)
      match copyBack distance length out with
      | some out => readSymbols literals distances bound out
      | none => failure

def lengthOrder : List Nat := [16, 17, 18, 0, 8, 7, 9, 6, 10, 5, 11, 4, 12, 3, 13, 2, 14, 1, 15]

def readLengths (code : PrefixCode) (total : Nat) : Nat → List Nat → BitReader (List Nat)
  | 0, _ => failure
  | bound + 1, lengths =>
    if total < lengths.length then failure
    else if lengths.length = total then return lengths
    else do
      match ← code.decode, lengths with
      | 16, last :: _ =>
        readLengths code total bound (List.replicate (3 + (← number 2)) last ++ lengths)
      | 16, [] => failure
      | 17, _ => readLengths code total bound (List.replicate (3 + (← number 3)) 0 ++ lengths)
      | 18, _ => readLengths code total bound (List.replicate (11 + (← number 7)) 0 ++ lengths)
      | length, _ => readLengths code total bound (length :: lengths)

/-- The code with these lengths. Only a code of a single symbol may be incomplete. -/
def codeOf? (lengths : List Nat) : Option PrefixCode :=
  if (lengths.filter (0 < ·)).length ≤ 1 || PrefixCode.isComplete lengths then
    some (.ofLengths lengths)
  else none

def readCodes : BitReader (PrefixCode × PrefixCode) := do
  let literalCount := 257 + (← number 5)
  let distanceCount := 1 + (← number 5)
  let given := 4 + (← number 4)
  let sizes ← (List.range given).mapM fun _ => number 3
  let sizeOf (symbol : Nat) : Nat := (sizes[lengthOrder.idxOf symbol]?).getD 0
  let code ← codeOf? ((List.range 19).map sizeOf)
  let total := literalCount + distanceCount
  let lengths := (← readLengths code total (total + 1) []).reverse
  return (← codeOf? (lengths.take literalCount), ← codeOf? (lengths.drop literalCount))

def readStored (out : ByteArray) : BitReader ByteArray := do
  BitReader.skipToByte
  let length ← number 16
  let complement ← number 16
  if length + complement ≠ 65535 then failure
  let s ← get
  let start := s.position / 8
  if s.bytes.size < start + length then failure
  set { s with position := s.position + 8 * length }
  return out ++ s.bytes.extract start (start + length)

def readBlocks (bits : Nat) : Nat → ByteArray → BitReader ByteArray
  | 0, _ => failure
  | bound + 1, out => do
    let last ← bit
    let out ← match ← number 2 with
      | 0 => readStored out
      | 1 => readSymbols fixedLiterals fixedDistances bits out
      | 2 => do
        let (literals, distances) ← readCodes
        readSymbols literals distances bits out
      | _ => failure
    if last = 1 then return out else readBlocks bits bound out

def inflate : BitReader ByteArray := do
  let bits := 8 * (← get).bytes.size
  readBlocks bits bits .empty

def isHeader (first second : Nat) : Bool :=
  first % 16 == 8 && first / 16 ≤ 7 && !second.testBit 5 && (256 * first + second) % 31 == 0

/-- The bytes compressed in data with a header and a checksum, which may be cut off or not. -/
def unwrap? (mayBeCut : Bool) (bytes : ByteArray) : Option ByteArray := do
  guard (isHeader (← bytes[0]?).toNat (← bytes[1]?).toNat)
  let (content, source) ← inflate.run ⟨bytes, 16⟩
  let start := (source.position + 7) / 8
  let sum := (bytes.extract start (start + 4)).foldl (fun n b => 256 * n + b.toNat) 0
  if bytes.size < start + 4 then guard mayBeCut
  else guard (sum = Checksum.adler32 content)
  return content

end Quilt.Deflate
