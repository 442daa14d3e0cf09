import Quilt.Image.ByteReader
import Quilt.Image.Samples

namespace Quilt.Bitmap

open ByteReader

structure BitField where
  shift : Nat
  size : Nat
deriving DecidableEq, Repr

namespace BitField

/-- The field of a mask within numbers of `limit` bits. The bits of a mask stand together, and of
more than eight the high ones count. -/
def ofMask? (limit mask : Nat) : Option BitField :=
  let shift := ((List.range limit).find? mask.testBit).getD 0
  let size := ((List.range (limit + 1 - shift)).find? fun n => mask >>> shift < 1 <<< n).getD 0
  if mask = ((1 <<< size) - 1) <<< shift then some ⟨shift + (size - 8), min 8 size⟩ else none

def byteOf (f : BitField) (n : Nat) : UInt8 :=
  let most := (1 <<< f.size) - 1
  ((2 * 255 * ((n >>> f.shift) % (1 <<< f.size)) + most) / (2 * most)).toUInt8

end BitField

structure ColorFields where
  red : BitField
  green : BitField
  blue : BitField
  alpha : BitField
deriving DecidableEq, Repr

namespace ColorFields

def pixel (f : ColorFields) (n : Nat) : Pixel :=
  ⟨f.red.byteOf n, f.green.byteOf n, f.blue.byteOf n,
    if f.alpha.size = 0 then 255 else f.alpha.byteOf n⟩

def fives : ColorFields := ⟨⟨10, 5⟩, ⟨5, 5⟩, ⟨0, 5⟩, ⟨0, 0⟩⟩

def eights : ColorFields := ⟨⟨16, 8⟩, ⟨8, 8⟩, ⟨0, 8⟩, ⟨0, 0⟩⟩

def eightsWithAlpha : ColorFields := { eights with alpha := ⟨24, 8⟩ }

def ofMasks? (limit red green blue alpha : Nat) : Option ColorFields := do
  guard (red ≠ 0 ∧ green ≠ 0 ∧ blue ≠ 0)
  return ⟨← BitField.ofMask? limit red, ← BitField.ofMask? limit green,
    ← BitField.ofMask? limit blue, ← BitField.ofMask? limit alpha⟩

end ColorFields

inductive Coding where
  | places (palette : Array Pixel)
  | runs (palette : Array Pixel)
  | fields (fields : ColorFields)
deriving DecidableEq, Repr

structure Header where
  width : Nat
  height : Nat
  startsAbove : Bool
  bits : Nat
  coding : Coding
  size : Nat
deriving DecidableEq, Repr

def palette (entrySize count : Nat) : ByteReader (Array Pixel) := do
  let content := (← bytes (entrySize * count)).toArray
  return Array.ofFn fun i : Fin 256 =>
    let start := entrySize * i
    let byte (n : Nat) := content.getD (start + n) 0
    ⟨byte 2, byte 1, byte 0, 255⟩

def sizeLimit : Nat := 65535

def shortHeader : ByteReader Header := do
  let width ← lowFirst 2
  let height ← lowFirst 2
  guard (0 < width ∧ 0 < height ∧ (← lowFirst 2) = 1)
  let bits ← lowFirst 2
  if bits = 24 then return ⟨width, height, false, bits, .fields .eights, 12⟩
  guard ([1, 4, 8].contains bits)
  let count := 1 <<< bits
  return ⟨width, height, false, bits, .places (← palette 3 count), 12 + 3 * count⟩

/-- Height, and whether the rows start above, of a number that says so by its sign. -/
def height? (n : Nat) : Option (Nat × Bool) :=
  let half := UInt32.size / 2
  if n = 0 then none
  else if n ≤ sizeLimit then some (n, false)
  else if half < n then some (UInt32.size - n, true) else none

def longHeader (size : Nat) (inIcon : Bool) : ByteReader Header := do
  let width ← lowFirst 4
  guard (0 < width ∧ width ≤ sizeLimit)
  let (height, startsAbove) ← height? (← lowFirst 4)
  guard ((← lowFirst 2) = 1)
  let bits ← lowFirst 2
  let method ← lowFirst 4
  guard (!startsAbove || method = 0 || method = 3)
  skip 12
  let colors ← lowFirst 4
  skip 4
  let make (coding : Coding) (behind : Nat) : Header :=
    ⟨width, height, startsAbove, bits, coding, size + behind⟩
  let colored (coding : Array Pixel → Coding) : ByteReader Header := do
    guard (colors ≤ 1 <<< bits)
    let count := if colors = 0 then 1 <<< bits else colors
    skip (size - 40)
    return make (coding (← palette 4 count)) (4 * count)
  match method, bits with
  | 0, 1 | 0, 2 | 0, 4 | 0, 8 => colored .places
  | 0, 16 => return make (.fields .fives) 0
  | 0, 24 => return make (.fields .eights) 0
  | 0, 32 => return make (.fields (if inIcon then .eightsWithAlpha else .eights)) 0
  | 1, 8 | 2, 4 => colored .runs
  | 3, 16 | 3, 32 => do
    let red ← lowFirst 4
    let green ← lowFirst 4
    let blue ← lowFirst 4
    let alpha ← if [56, 108, 124].contains size then lowFirst 4 else pure 0
    let masksBehind := if [40, 108, 124].contains size then 12 else 0
    return make (.fields (← ColorFields.ofMasks? bits red green blue alpha)) masksBehind
  | _, _ => failure

def header (inIcon : Bool) : ByteReader Header := do
  let size ← lowFirst 4
  if size = 12 then shortHeader
  else do
    guard ([40, 52, 56, 108, 124].contains size)
    longHeader size inIcon

inductive Instruction where
  | endOfRow
  | endOfImage
  | move (right up : Nat)
  | draw (isRun : Bool) (places : List Nat)
deriving DecidableEq, Repr

/-- The places in bytes, one in each or two. -/
def placesOf (bits : Nat) (content : List UInt8) : List Nat :=
  if bits = 8 then content.map UInt8.toNat
  else content.flatMap fun b => [b.toNat / 16, b.toNat % 16]

def instruction (bits : Nat) : ByteReader Instruction := do
  let count := (← byte).toNat
  let b ← byte
  if count ≠ 0 then return .draw true ((placesOf bits (List.replicate count b)).take count)
  else match b.toNat with
    | 0 => return .endOfRow
    | 1 => return .endOfImage
    | 2 => return .move (← byte).toNat (← byte).toNat
    | count => do
      let size := if bits = 8 then count else (count + 1) / 2
      return .draw false ((placesOf bits (← bytes (size + size % 2))).take count)

/-- Draws runs onto pixels, from a column of a row, rows from the bottom. What a run has beyond the
end of a row is left out, but counts for the column. An instruction takes two bytes, which bounds
their number. -/
def drawRuns (palette : Array Pixel) (bits width height : Nat) :
    Nat → Nat → Nat → Array Pixel → ByteReader (Array Pixel)
  | 0, _, _, _ => failure
  | bound + 1, column, row, pixels => do
    if height ≤ row then return pixels
    match ← instruction bits with
    | .endOfRow => drawRuns palette bits width height bound 0 (row + 1) pixels
    | .endOfImage => return pixels
    | .move right up =>
      guard (row + up < height ∧ column + right ≤ width)
      drawRuns palette bits width height bound (column + right) (row + up) pixels
    | .draw isRun places =>
      guard (isRun || column + places.length ≤ width)
      let drawn := places.take (width - column)
      let start := row * width + column
      let pixels := drawn.zipIdx.foldl (fun pixels (place, i) =>
        pixels.setIfInBounds (start + i) (palette.getD place .clear)) pixels
      drawRuns palette bits width height bound (column + places.length) row pixels

def rowSize (bits width : Nat) : Nat := (bits * width + 31) / 32 * 4

def contentLimit : Nat := 1 <<< 29

def pixels (h : Header) : ByteReader Raster := do
  let fromTop (y : Nat) : Nat := if h.startsAbove then y else h.height - 1 - y
  let content : ByteReader (Array UInt8) :=
    return (← bytes (rowSize h.bits h.width * h.height)).toArray
  match h.coding with
  | .places palette => do
    let content ← content
    return Raster.ofFn h.width h.height fun x y =>
      palette.getD (packedSample h.bits content (fromTop y * rowSize h.bits h.width) x) .clear
  | .fields fields => do
    let content ← content
    return Raster.ofFn h.width h.height fun x y =>
      let start := fromTop y * rowSize h.bits h.width + x * (h.bits / 8)
      fields.pixel (numberOfBytes (content.extract start (start + h.bits / 8)).toList)
  | .runs palette => do
    guard (3 * (h.width * h.height) ≤ contentLimit)
    let black := Array.replicate (h.width * h.height) ⟨0, 0, 0, 255⟩
    let drawn ← drawRuns palette h.bits h.width h.height ((← get).length + 1) 0 0 black
    return Raster.ofFn h.width h.height fun x y =>
      drawn.getD (fromTop y * h.width + x) .clear

def decode? (file : List UInt8) : Option Raster := do
  let (h, start) ← ByteReader.read? (do
    signature "BM"
    skip 8
    let start ← lowFirst 4
    return (← header false, start)) file
  (pixels h).read? (file.drop start)

end Quilt.Bitmap
