import Quilt.Image.ByteReader
import Quilt.Image.Samples

namespace Quilt.Qoi

open ByteReader

/-- The name of a pixel, one of sixty-four. The last pixel of a name is the one it stands for. -/
def name (p : Pixel) : Nat :=
  (3 * p.red.toNat + 5 * p.green.toNat + 7 * p.blue.toNat + 11 * p.alpha.toNat) % 64

def step (p : Pixel) (red green blue : UInt8) : Pixel :=
  ⟨p.red + red, p.green + green, p.blue + blue, p.alpha⟩

inductive Instruction where
  | named (name : Nat)
  | repeated (count : Nat)
  | pixel (p : Pixel)
deriving DecidableEq, Repr

def instruction (hasAlpha : Bool) (last : Pixel) : ByteReader Instruction := do
  let b ← byte
  let low := b &&& 63
  if b = 255 then
    if hasAlpha then return .pixel (.ofSamples (← bytes 4)) else return .pixel last
  else if b = 254 then
    return .pixel { Pixel.ofSamples (← bytes 3) with alpha := last.alpha }
  else match b >>> 6 with
    | 0 => return .named low.toNat
    | 1 => return .pixel (step last ((low >>> 4) - 2) ((low >>> 2 &&& 3) - 2) ((low &&& 3) - 2))
    | 2 => do
      let green := low - 32
      let b ← byte
      return .pixel (step last (green + (b >>> 4) - 8) green (green + (b &&& 15) - 8))
    | _ => return .repeated (low.toNat + 1)

/-- Reads `left` pixels. Every instruction takes a byte, which bounds their number. -/
def pixelsFrom (hasAlpha : Bool) (seen : Array Pixel) (last : Pixel) (drawn : List Pixel) :
    Nat → Nat → ByteReader (List Pixel)
  | _, 0 => return drawn.reverse
  | 0, _ + 1 => failure
  | bound + 1, left + 1 => do
    match ← instruction hasAlpha last with
    | .named n =>
      let p := seen.getD n .clear
      pixelsFrom hasAlpha seen p (p :: drawn) bound left
    | .repeated count =>
      let count := min count (left + 1)
      pixelsFrom hasAlpha seen last (List.replicate count last ++ drawn) bound (left + 1 - count)
    | .pixel p => pixelsFrom hasAlpha (seen.setIfInBounds (name p) p) p (p :: drawn) bound left

def pixelLimit : Nat := 400000000

def decode : ByteReader Raster := do
  signature "qoif"
  let width ← highFirst 4
  let height ← highFirst 4
  let depth ← byte
  guard (depth = 3 ∨ depth = 4)
  guard ((← byte) ≤ 1)
  let count := width * height
  guard (0 < count ∧ count ≤ pixelLimit)
  let opaqueBlack : Pixel := ⟨0, 0, 0, 255⟩
  let unseen := if depth = 4 then .clear else opaqueBlack
  let pixels ← pixelsFrom (depth = 4) (Array.replicate 64 unseen) opaqueBlack [] (← get).length count
  guard ((← bytes 8) = [0, 0, 0, 0, 0, 0, 0, 1])
  let pixels := pixels.toArray
  return Raster.ofFn width height fun x y => pixels.getD (y * width + x) .clear

end Quilt.Qoi
