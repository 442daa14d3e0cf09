import Quilt.Render.Raster

namespace Quilt

/-- The pixel of a gray sample or of three colors, with an alpha sample behind or without. -/
def Pixel.ofSamples : List UInt8 → Pixel
  | [gray] => ⟨gray, gray, gray, 255⟩
  | [gray, alpha] => ⟨gray, gray, gray, alpha⟩
  | [red, green, blue] => ⟨red, green, blue, 255⟩
  | [red, green, blue, alpha] => ⟨red, green, blue, alpha⟩
  | _ => .clear

def Pixel.swapped (p : Pixel) : Pixel := ⟨p.blue, p.green, p.red, p.alpha⟩

def Pixel.ofEach (rule : (Pixel → UInt8) → UInt8) : Pixel :=
  ⟨rule Pixel.red, rule Pixel.green, rule Pixel.blue, rule Pixel.alpha⟩

def Raster.ofSamples? (width height depth : Nat) (samples : List UInt8) : Option Raster :=
  let samples := samples.toArray
  if samples.size ≠ depth * (width * height) then none
  else some (Raster.ofFn width height fun x y =>
    let start := depth * (y * width + x)
    .ofSamples (samples.extract start (start + depth)).toList)

def wideSamples (bytes : List UInt8) : List Nat :=
  let bytes := bytes.toArray
  (List.range (bytes.size / 2)).map fun i =>
    256 * (bytes.getD (2 * i) 0).toNat + (bytes.getD (2 * i + 1) 0).toNat

def narrowSample (n : Nat) : UInt8 := ((n + 128) / 257).toUInt8

/-- The byte next to a sample out of one. All beyond one, and what is no number, is full. -/
def levelOfFloat (x : Float32) : UInt8 :=
  if x < 1 then ((if x < 0 then 0 else x) * 255).round.toUInt8 else 255

/-- The sample at a position of a row, where each has `bits` bits and the first ones stand in the
high bits of a byte. -/
def packedSample (bits : Nat) (bytes : Array UInt8) (rowStart position : Nat) : Nat :=
  let b := (bytes.getD (rowStart + position * bits / 8) 0).toNat
  (b >>> (8 - bits - position * bits % 8)) % (1 <<< bits)

end Quilt
