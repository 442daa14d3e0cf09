import Quilt.Image.ByteReader
import Quilt.Image.Samples

namespace Quilt.Targa

open ByteReader

structure Header where
  commentSize : Nat
  hasMap : Bool
  kind : Nat
  mapStart : Nat
  mapCount : Nat
  mapBits : Nat
  width : Nat
  height : Nat
  bits : Nat
  description : Nat
deriving DecidableEq, Repr

namespace Header

def isMapped (h : Header) : Bool := h.kind == 1 || h.kind == 9

def isColored (h : Header) : Bool := h.isMapped || h.kind == 2 || h.kind == 10

def isPacked (h : Header) : Bool := h.kind == 9 || h.kind == 10 || h.kind == 11

def pixelSize (h : Header) : Nat := (h.bits + 7) / 8

def entrySize (h : Header) : Nat := (h.mapBits + 7) / 8

def alphaBits (h : Header) : Nat := h.description % 16

def startsRight (h : Header) : Bool := h.description.testBit 4

def startsAbove (h : Header) : Bool := h.description.testBit 5

def isSound (h : Header) : Bool :=
  decide (0 < h.width ∧ 0 < h.height) && (!h.hasMap || [15, 16, 24, 32].contains h.mapBits) &&
    (!h.isMapped || (h.hasMap && [8, 16].contains h.bits))

def colorBits (h : Header) : Nat := if h.isMapped then h.mapBits else h.bits

/-- Whether there is a way to read pixels of this many bits with this many for alpha. One bit of
alpha is none. -/
def isReadable (h : Header) : Bool :=
  h.alphaBits ≤ h.colorBits && match h.alphaBits, h.colorBits, h.isColored with
    | 0, 32, true | 8, 32, true | 0, 24, true => true
    | 0, 15, true | 0, 16, true | 1, 16, true => true
    | 8, 16, false | 0, 8, false | 8, 8, false => true
    | _, _, _ => false

def pixel (h : Header) (bytes : List UInt8) : Pixel :=
  if h.isColored ∧ bytes.length = 2 then
    let n := numberOfBytes bytes
    let fifth (shift : Nat) : UInt8 := (((n >>> shift) % 32 * 255 + 15) / 31).toUInt8
    ⟨fifth 10, fifth 5, fifth 0, 255⟩
  else (Pixel.ofSamples bytes).swapped

end Header

def header : ByteReader Header := do
  let commentSize ← lowFirst 1
  let hasMap := (← lowFirst 1) == 1
  let kind ← lowFirst 1
  let mapStart ← lowFirst 2
  let mapCount ← lowFirst 2
  let mapBits ← lowFirst 1
  skip 4
  let width ← lowFirst 2
  let height ← lowFirst 2
  let bits ← lowFirst 1
  return ⟨commentSize, hasMap, kind, mapStart, mapCount, mapBits, width, height, bits, ← lowFirst 1⟩

/-- Reads `left` pixels of `size` bytes from packets, onto parts that are the last one first. A
packet that goes on beyond the image is cut off. Each takes a byte, which bounds their number. -/
def packets (size : Nat) (parts : List (List UInt8)) : Nat → Nat → ByteReader (List UInt8)
  | _, 0 => return parts.reverse.flatten
  | 0, _ + 1 => failure
  | bound + 1, left + 1 => do
    let mark ← byte
    let count := min (mark.toNat % 128 + 1) (left + 1)
    let part ← if mark < 128 then bytes (count * size)
      else pure (List.replicate count (← bytes size)).flatten
    packets size (part :: parts) bound (left + 1 - count)

def mapColor? (h : Header) (map : Array UInt8) (place : Nat) : Option (List UInt8) :=
  let start := h.entrySize * (place - h.mapStart)
  if h.mapStart ≤ place ∧ start + h.entrySize ≤ map.size then
    some (map.extract start (start + h.entrySize)).toList
  else none

def pixels? (h : Header) (map content : Array UInt8) : Option (Array Pixel) :=
  let pixel? (i : Nat) : Option Pixel :=
    let part := (content.extract (h.pixelSize * i) (h.pixelSize * (i + 1))).toList
    if h.isMapped then (mapColor? h map (numberOfBytes part)).map h.pixel else some (h.pixel part)
  ((List.range (h.width * h.height)).mapM pixel?).map List.toArray

def decode : ByteReader Raster := do
  let h ← header
  guard (h.isSound && h.isReadable)
  skip h.commentSize
  let map := (← bytes (if h.hasMap then h.entrySize * h.mapCount else 0)).toArray
  let count := h.width * h.height
  let content ← if h.isPacked then packets h.pixelSize [] (← get).length count
    else bytes (h.pixelSize * count)
  let pixels ← pixels? h map content.toArray
  return Raster.ofFn h.width h.height fun x y =>
    let column := if h.startsRight then h.width - 1 - x else x
    let row := if h.startsAbove then y else h.height - 1 - y
    pixels.getD (row * h.width + column) .clear

end Quilt.Targa
