import Quilt.Error

namespace Quilt

structure Raster where
  width : Nat
  height : Nat
  pixels : Array Pixel
  size_pixels : pixels.size = width * height
deriving DecidableEq, Repr

namespace Raster

def clear (width height : Nat) : Raster :=
  ⟨width, height, Array.replicate (width * height) .clear, by simp⟩

def ofFn (width height : Nat) (f : Nat → Nat → Pixel) : Raster :=
  ⟨width, height, Array.ofFn fun i : Fin (width * height) => f (i % width) (i / width), by simp⟩

def ofBytes (width height : Nat) (data : Array UInt8) : Except Error Raster :=
  let expected := width * height * 4
  if UInt64.size ≤ expected then .error .rasterOverflow
  else if data.size ≠ expected then .error (.rasterBytes data.size expected width height)
  else
    let byte (i : Nat) := data.getD i 0
    .ok ⟨width, height, Array.ofFn fun i : Fin (width * height) =>
      ⟨byte (4 * i), byte (4 * i + 1), byte (4 * i + 2), byte (4 * i + 3)⟩, by simp⟩

def bytes (r : Raster) : List UInt8 := r.pixels.toList.flatMap Pixel.bytes

def pixel? (r : Raster) (x y : Nat) : Option Pixel :=
  if x < r.width ∧ y < r.height then r.pixels[y * r.width + x]? else none

/-- Draws one pixel. A place outside the raster is left alone. -/
def put (r : Raster) (x y : Nat) (p : Pixel) : Raster :=
  if x < r.width ∧ y < r.height then
    ⟨r.width, r.height, r.pixels.setIfInBounds (y * r.width + x) p, by simp [r.size_pixels]⟩
  else r

def row (r : Raster) (y : Nat) : List Pixel :=
  (r.pixels.extract (y * r.width) (y * r.width + r.width)).toList

end Raster

end Quilt
