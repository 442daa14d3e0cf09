import Quilt.Image.Deflate
import Quilt.Image.Library
import Quilt.Image.Samples

namespace Quilt.Png

open Checksum (crc32 adler32)

def word (n : Nat) : ByteArray :=
  ⟨#[(n >>> 24).toUInt8, (n >>> 16).toUInt8, (n >>> 8).toUInt8, n.toUInt8]⟩

def wordAt (bytes : ByteArray) (i : Nat) : Nat :=
  (bytes.extract i (i + 4)).foldl (fun n b => 256 * n + b.toNat) 0

def shortWord (n : Nat) : ByteArray := ⟨#[n.toUInt8, (n >>> 8).toUInt8]⟩

def chunk (name : String) (content : ByteArray) : ByteArray :=
  let named := name.toUTF8 ++ content
  word content.size ++ named ++ word (crc32 named).toNat

def storedBlocks (bytes : ByteArray) : ByteArray :=
  let count := max 1 ((bytes.size + 65534) / 65535)
  (List.range count).foldl (fun out i =>
    let part := bytes.extract (65535 * i) (65535 * (i + 1))
    let mark : UInt8 := if i + 1 = count then 1 else 0
    out.push mark ++ shortWord part.size ++ shortWord (65535 - part.size) ++ part) .empty

/-- Each row after the mark of an unfiltered row. -/
def unfilteredRows (r : Raster) : ByteArray :=
  (List.range r.height).foldl (fun out y =>
    (r.row y).foldl (fun out p => p.bytes.foldl ByteArray.push out) (out.push 0)) .empty

def encode (r : Raster) : ByteArray :=
  let rows := unfilteredRows r
  let header := word r.width ++ word r.height ++ ⟨#[8, 6, 0, 0, 0]⟩
  let content := ⟨#[0x78, 0x01]⟩ ++ storedBlocks rows ++ word (adler32 rows)
  ⟨pngSignature⟩ ++ chunk "IHDR" header ++ chunk "IDAT" content ++ chunk "IEND" .empty

def nameCode (name : String) : Nat := wordAt name.toUTF8 0

/-- The chunks from a position on, by name. Each takes twelve bytes and more, which bounds their
number. -/
def chunksFrom (bytes : ByteArray) : Nat → Nat → Option (List (Nat × ByteArray))
  | 0, _ => none
  | bound + 1, i =>
    let size := wordAt bytes i
    if bytes.size < i + 12 + size then none
    else
      let named := bytes.extract (i + 4) (i + 8 + size)
      let name := wordAt named 0
      if wordAt bytes (i + 8 + size) ≠ (crc32 named).toNat then none
      else if name = nameCode "IEND" then some []
      else (chunksFrom bytes bound (i + 12 + size)).map ((name, named.extract 4 (4 + size)) :: ·)

/-- Of left, upper and upper left neighbour the one next to left + upper - upper left. -/
def nearestNeighbour (left up corner : Nat) : Nat :=
  let guess : Int := left + up - corner
  let offBy (n : Nat) : Nat := (guess - n).natAbs
  if offBy left ≤ offBy up ∧ offBy left ≤ offBy corner then left
  else if offBy up ≤ offBy corner then up else corner

def predict (filter : UInt8) (left up corner : Nat) : Option Nat :=
  match filter with
  | 0 => some 0
  | 1 => some left
  | 2 => some up
  | 3 => some ((left + up) / 2)
  | 4 => some (nearestNeighbour left up corner)
  | _ => none

def unfilter (bytes : ByteArray) (rowSize pixelSize : Nat) : Nat → Option ByteArray
  | 0 => some .empty
  | y + 1 => do
    let out ← unfilter bytes rowSize pixelSize y
    let start := y * (rowSize + 1)
    let filter ← bytes[start]?
    (List.range rowSize).foldlM (fun out x => do
      let above := y * rowSize + x - rowSize
      let old (there : Prop) [Decidable there] (i : Nat) : Nat :=
        if there then (out[i]?).elim 0 UInt8.toNat else 0
      let add ← predict filter (old (pixelSize ≤ x) (y * rowSize + x - pixelSize))
        (old (0 < y) above) (old (0 < y ∧ pixelSize ≤ x) (above - pixelSize))
      return out.push ((← bytes[start + 1 + x]?) + add.toUInt8)) out

def sampleCount? : Option UInt8 → Option Nat
  | some 0 => some 1
  | some 2 => some 3
  | some 4 => some 2
  | some 6 => some 4
  | _ => none

def decode? (bytes : ByteArray) : Option Raster := do
  if (bytes.extract 0 8).data ≠ pngSignature then none
  let chunks ← chunksFrom bytes bytes.size 8
  let header ← chunks.lookup (nameCode "IHDR")
  let samples ← sampleCount? header[9]?
  if header[8]? ≠ some 8 ∨ header[12]? ≠ some 0 then none
  let (width, height) := (wordAt header 0, wordAt header 4)
  let parts := chunks.filter (·.1 = nameCode "IDAT")
  let packed := parts.foldl (fun all part => all ++ part.2) ByteArray.empty
  let rows ← Deflate.inflate.read? (packed.extract 2 packed.size)
  if rows.size ≠ height * (samples * width + 1) then none
  let content ← unfilter rows (samples * width) samples height
  Raster.ofSamples? width height samples content.data.toList

end Quilt.Png
