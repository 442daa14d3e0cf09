import Quilt.Image.ByteReader
import Quilt.Image.Samples
import Quilt.Text.Digits
import Quilt.Text.Words

namespace Quilt.Netpbm

open ByteReader

def isBlank (c : Char) : Bool := c == ' ' || ('\t' ≤ c && c ≤ '\r')

def numberLimit : Nat := UInt32.size

/-- Goes on with a word, within a comment or without. The blank behind the word is taken. A comment
counts for nothing, and so does the end of its line. -/
def wordFrom (inComment : Bool) (word : List Char) : List UInt8 → Option (List Char × List UInt8)
  | [] => if word.isEmpty then none else some (word.reverse, [])
  | b :: rest =>
    let c := Char.ofUInt8 b
    if inComment then wordFrom (c ≠ '\n' ∧ c ≠ '\r') word rest
    else if c = '#' then wordFrom true word rest
    else if !isBlank c then wordFrom false (c :: word) rest
    else if word.isEmpty then wordFrom false word rest
    else some (word.reverse, rest)

def number : ByteReader Nat := do
  let n ← Text.readDigits (← (wordFrom false [] : ByteReader (List Char)))
  guard (n < numberLimit)
  return n

/-- A sample out of `maxval` as one out of `limit`, in single precision: the quotient of the two is
rounded, and so is its product with the sample. -/
def rescale (limit maxval n : Nat) : Nat :=
  min limit (n.toFloat32 * (limit.toFloat32 / maxval.toFloat32)).round.toUInt16.toNat

structure Header where
  width : Nat
  height : Nat
  depth : Nat
  maxval : Nat
  /-- The greatest sample that the bytes of a sample can hold. -/
  limit : Nat
deriving DecidableEq, Repr

namespace Header

def count (h : Header) : Nat := h.depth * (h.width * h.height)

def raster? (h : Header) (samples : List Nat) : Option Raster :=
  let scaled := samples.map (rescale h.limit h.maxval)
  Raster.ofSamples? h.width h.height h.depth
    (scaled.map fun n => if h.limit = 255 then n.toUInt8 else narrowSample n)

end Header

def limitOf? (maxval : Nat) : Option Nat :=
  if maxval = 0 ∨ 65535 < maxval then none else some (if maxval ≤ 255 then 255 else 65535)

def header (depth : Nat) : ByteReader Header := do
  let width ← number
  let height ← number
  let maxval ← number
  return ⟨width, height, depth, maxval, ← limitOf? maxval⟩

def samplesInText (h : Header) : ByteReader (List Nat) := do
  let found := (Text.words isBlank ((← get).map Char.ofUInt8)).take h.count
  found.mapM fun word => (Text.readDigits word).filter (· ≤ h.limit)

def samplesInBytes (h : Header) : ByteReader (List Nat) := do
  if h.limit = 255 then return (← bytes h.count).map UInt8.toNat
  else return wideSamples (← bytes (2 * h.count))

def bitSample (bit : Nat) : UInt8 := if bit = 0 then 255 else 0

def bitOfChar? : Char → Option Nat
  | '0' => some 0
  | '1' => some 1
  | _ => none

def bitsInText : ByteReader Raster := do
  let width ← number
  let height ← number
  let found := ((← get).map Char.ofUInt8).filter (!isBlank ·)
  let bits ← (found.take (width * height)).mapM fun c => (bitOfChar? c : ByteReader Nat)
  Raster.ofSamples? width height 1 (bits.map bitSample)

/-- Every row of bits starts with a byte of its own. -/
def bitsInBytes : ByteReader Raster := do
  let width ← number
  let height ← number
  let rowSize := (width + 7) / 8
  let content := (← bytes (rowSize * height)).toArray
  return Raster.ofFn width height fun x y =>
    .ofSamples [bitSample (packedSample 1 content (y * rowSize) x)]

def field (text : List Char) : List Char × List Char :=
  let isInside (c : Char) : Bool := !isBlank c
  (text.takeWhile isInside, Text.trim isBlank (text.dropWhile isInside))

def keys : List (List Char) :=
  ["WIDTH", "HEIGHT", "DEPTH", "MAXVAL", "TUPLTYPE", "ENDHDR"].map String.toList

def isEnd (text : List Char) : Bool := (field text).1 == "ENDHDR".toList

def values (fields : List (List Char × List Char)) (key : String) : List (List Char) :=
  (fields.filter (·.1 = key.toList)).map (·.2)

def value? (fields : List (List Char × List Char)) (key : String) : Option Nat :=
  match values fields key with
  | [value] => Text.readNatural numberLimit value
  | _ => none

structure Kind where
  depth : Nat
  /-- The greatest sample that the bytes of a sample can hold. -/
  limit : Nat
  isBits : Bool
deriving DecidableEq, Repr

namespace Kind

def ofName? (name : String) (depth maxval : Nat) : Option Kind := do
  let limit ← limitOf? maxval
  match name, depth with
  | "BLACKANDWHITE", 1 | "BLACKANDWHITE_ALPHA", 2 =>
    if maxval = 1 then some ⟨depth, limit, true⟩ else none
  | "GRAYSCALE", 0 => some ⟨1, 65535, false⟩
  | "GRAYSCALE", 1 | "GRAYSCALE_ALPHA", 2 | "RGB", 3 | "RGB_ALPHA", 4 => some ⟨depth, limit, false⟩
  | _, _ => none

/-- The kind that is named. Where none is, the number of samples tells it, and they are single
bytes for any brightness. -/
def ofNames? (names : List (List Char)) (depth maxval : Nat) : Option Kind :=
  match names with
  | [] => if 1 ≤ depth ∧ depth ≤ 4 ∧ maxval ≠ 0 then some ⟨depth, 255, false⟩ else none
  | [name] => ofName? (String.ofList name) depth maxval
  | _ => none

end Kind

def anyMap : ByteReader Raster := do
  guard ((← byte) = 10)
  let lines := (← linesUntil isEnd).filter (·.head? ≠ some '#')
  guard (lines.all fun text => text.all (·.toNat < 128))
  let fields := lines.map field
  guard (fields.all fun (key, _) => keys.contains key)
  let maxval ← value? fields "MAXVAL"
  let kind ← Kind.ofNames? (values fields "TUPLTYPE") (← value? fields "DEPTH") maxval
  let h : Header :=
    ⟨← value? fields "WIDTH", ← value? fields "HEIGHT", kind.depth, maxval, kind.limit⟩
  let samples ← samplesInBytes h
  guard (!kind.isBits || samples.all (· ≤ 1))
  h.raster? samples

def decode : ByteReader Raster := do
  guard (Char.ofUInt8 (← byte) = 'P')
  match Char.ofUInt8 (← byte) with
  | '1' => bitsInText
  | '2' => do
    let h ← header 1
    h.raster? (← samplesInText h)
  | '3' => do
    let h ← header 3
    h.raster? (← samplesInText h)
  | '4' => bitsInBytes
  | '5' => do
    let h ← header 1
    h.raster? (← samplesInBytes h)
  | '6' => do
    let h ← header 3
    h.raster? (← samplesInBytes h)
  | '7' => anyMap
  | _ => failure

end Quilt.Netpbm
