import Quilt.Image.ByteReader
import Quilt.Image.Samples

namespace Quilt.Dds

open ByteReader

/-- How a block stores alpha: not at all, as sixteen steps for each pixel, or as a choice between
eight values on the way from one to another. -/
inductive Coding where
  | opaqueColors | steps | choices
deriving DecidableEq, Repr

namespace Coding

def ofName? (name : List Char) : Option Coding :=
  match String.ofList name with
  | "DXT1" => some .opaqueColors
  | "DXT3" => some .steps
  | "DXT5" => some .choices
  | _ => none

def ofNumber? (n : Nat) : Option Coding :=
  if 70 ≤ n ∧ n ≤ 72 then some .opaqueColors
  else if 73 ≤ n ∧ n ≤ 75 then some .steps
  else if 76 ≤ n ∧ n ≤ 78 then some .choices
  else none

end Coding

def colorOf (n : Nat) : List Nat :=
  [(n >>> 11) % 32 * 255 / 31, (n >>> 5) % 64 * 255 / 63, n % 32 * 255 / 31]

def between (a b : Nat) (first second : List Nat) : List Nat :=
  List.zipWith (fun x y => (a * x + b * y + (a + b) / 2) / (a + b)) first second

/-- The four colors of a block. Without alpha, the order of the two that are given says whether one
or two lie between them. -/
def palette (coding : Coding) (first second : Nat) : List (List Nat) :=
  let (one, other) := (colorOf first, colorOf second)
  if second < first ∨ coding ≠ .opaqueColors then
    [one, other, between 2 1 one other, between 1 2 one other]
  else [one, other, between 1 1 one other, [0, 0, 0]]

/-- The eight alpha values between two. In ascending order they leave room for the extremes. -/
def alphas (first second : Nat) : List Nat :=
  let mean (parts i : Nat) : Nat := ((parts - i) * first + i * second) / parts
  if second < first then [first, second] ++ [1, 2, 3, 4, 5, 6].map (mean 7)
  else [first, second] ++ [1, 2, 3, 4].map (mean 5) ++ [0, 255]

def alphaBlock : Coding → ByteReader (List Nat)
  | .opaqueColors => return List.replicate 16 255
  | .steps => do
    let n ← lowFirst 8
    return (List.range 16).map fun i => (n >>> (4 * i)) % 16 * 17
  | .choices => do
    let table := alphas (← byte).toNat (← byte).toNat
    let n ← lowFirst 6
    return (List.range 16).map fun i => table.getD ((n >>> (3 * i)) % 8) 0

def block (coding : Coding) : ByteReader (Array Pixel) := do
  let alphaValues ← alphaBlock coding
  let table := palette coding (← lowFirst 2) (← lowFirst 2)
  let n ← lowFirst 4
  let colors := (List.range 16).map fun i => table.getD ((n >>> (2 * i)) % 4) []
  return (List.zipWith (fun color alpha => .ofSamples ((color ++ [alpha]).map Nat.toUInt8))
    colors alphaValues).toArray

def blocks (coding : Coding) (drawn : List (Array Pixel)) : Nat → ByteReader (List (Array Pixel))
  | 0 => return drawn.reverse
  | n + 1 => do
    let next ← block coding
    blocks coding (next :: drawn) n

def requiredFlags : Nat := 0x1007

def allowedFlags : Nat := 0x8A100F

structure Header where
  width : Nat
  height : Nat
  coding : Coding
deriving DecidableEq, Repr

/-- Reads the second header, which a coding with a number has. It is a texture of one to three
dimensions, maybe of a cube, and one of three dimensions stands alone. -/
def numberedCoding : ByteReader Coding := do
  let number ← lowFirst 4
  let dimensions ← lowFirst 4
  let flags ← lowFirst 4
  let count ← lowFirst 4
  let alphaMode ← lowFirst 4
  guard (2 ≤ dimensions ∧ dimensions ≤ 4 ∧ (flags = 0 ∨ flags = 4))
  guard ((dimensions = 4 → count = 1) ∧ alphaMode ≤ 4)
  Coding.ofNumber? number

def header : ByteReader Header := do
  signature "DDS "
  guard ((← lowFirst 4) = 124)
  let flags ← lowFirst 4
  guard (flags &&& requiredFlags = requiredFlags ∧ flags &&& allowedFlags = flags)
  let height ← lowFirst 4
  let width ← lowFirst 4
  skip 56
  guard ((← lowFirst 4) = 32)
  guard ((← lowFirst 4).testBit 2)
  let name := (← bytes 4).map Char.ofUInt8
  skip 40
  let coding ← if name = "DX10".toList then numberedCoding else Coding.ofName? name
  return ⟨width, height, coding⟩

def decode : ByteReader Raster := do
  let h ← header
  guard (h.width % 4 = 0 ∧ h.height % 4 = 0)
  let across := h.width / 4
  let drawn := (← blocks h.coding [] (across * (h.height / 4))).toArray
  return Raster.ofFn h.width h.height fun x y =>
    let pixels := drawn.getD (y / 4 * across + x / 4) #[]
    pixels.getD (y % 4 * 4 + x % 4) .clear

end Quilt.Dds
