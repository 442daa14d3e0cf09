import Quilt.Image.Bitmap

namespace Quilt.Icon

open ByteReader

structure Entry where
  width : Nat
  height : Nat
  bits : Nat
  size : Nat
  start : Nat
deriving DecidableEq, Repr

namespace Entry

/-- Whether an image is better than another: it has more bits or, with as many, more pixels. -/
def isBetter (a b : Entry) : Bool :=
  decide (b.bits < a.bits) || (a.bits == b.bits && decide (b.width * b.height < a.width * a.height))

end Entry

/-- Reads a width or height. Zero stands for 256. -/
def sideLength : ByteReader Nat := do
  let n := (← byte).toNat
  return if n = 0 then 256 else n

def smallNumber : ByteReader Nat := do
  let n ← lowFirst 2
  guard (n ≤ 256)
  return n

def entry : ByteReader Entry := do
  let width ← sideLength
  let height ← sideLength
  skip 2
  let _ ← smallNumber
  let bits ← smallNumber
  return ⟨width, height, bits, ← lowFirst 4, ← lowFirst 4⟩

def entries : Nat → ByteReader (List Entry)
  | 0 => return []
  | n + 1 => do
    let first ← entry
    return first :: (← entries n)

def directory : ByteReader (List Entry) := do
  skip 4
  entries (← lowFirst 2)

/-- The best image. Among equals the last of the directory counts, or else the first of them. -/
def best? (all : List Entry) : Option Entry :=
  all.getLast?.map fun last => all.foldl (fun best e => if e.isBetter best then e else best) last

/-- Makes the pixels transparent whose bits are set, rows from the bottom. -/
def mask (r : Raster) (rowSize : Nat) (bits : Array UInt8) : Raster :=
  Raster.ofFn r.width r.height fun x y =>
    let p := (r.pixel? x y).getD .clear
    if packedSample 1 bits ((r.height - 1 - y) * rowSize) x = 0 then p else { p with alpha := 0 }

def decode? (file : List UInt8) : Option Raster := do
  let e ← best? (← directory.read? file)
  let image := file.drop e.start
  let h ← (Bitmap.header true).read? image
  let h := { h with height := h.height / 2 }
  guard (e.width = min h.width 256 ∧ e.height = min h.height 256)
  let (raster, rest) ← (Bitmap.pixels h).run (image.drop h.size)
  let pixelsEnd := image.length - rest.length
  let rowSize := Bitmap.rowSize 1 h.width
  if pixelsEnd + rowSize * h.height ≤ e.size then
    return mask raster rowSize (← (bytes (rowSize * h.height)).read? rest).toArray
  else
    guard (e.size = pixelsEnd)
    return raster

end Quilt.Icon
