import Quilt.Image.ByteReader
import Quilt.Image.Deflate
import Quilt.Image.Lzw
import Quilt.Image.Samples

namespace Quilt.Tiff

open ByteReader

structure Source where
  file : List UInt8
  highFirst : Bool
  isBig : Bool
deriving DecidableEq, Repr

namespace Source

def number (s : Source) (n : Nat) : ByteReader Nat :=
  if s.highFirst then ByteReader.highFirst n else ByteReader.lowFirst n

def place (s : Source) : ByteReader Nat := s.number (if s.isBig then 8 else 4)

def placeSize (s : Source) : Nat := if s.isBig then 8 else 4

def numbers (s : Source) (size count : Nat) (content : List UInt8) : List Nat :=
  let content := content.toArray
  (List.range count).map fun i =>
    let part := (content.extract (size * i) (size * (i + 1))).toList
    numberOfBytes (if s.highFirst then part.reverse else part)

end Source

structure Entry where
  tag : Nat
  kind : Nat
  count : Nat
  content : List UInt8
deriving DecidableEq, Repr

def valueSize? (kind : Nat) : Option Nat :=
  if [1, 2, 6, 7].contains kind then some 1
  else if [3, 8].contains kind then some 2
  else if [4, 9, 11, 13].contains kind then some 4
  else if [5, 10, 12, 16, 17, 18].contains kind then some 8
  else none

def isNatural (kind : Nat) : Bool := [1, 3, 4, 7, 13, 16, 18].contains kind

/-- Reads an entry. One of an unknown type is left out. -/
def entry (s : Source) : ByteReader (Option Entry) := do
  let tag ← s.number 2
  let kind ← s.number 2
  if (valueSize? kind).isNone then
    skip 8
    return none
  let count ← s.place
  return some ⟨tag, kind, count, ← bytes s.placeSize⟩

def entriesFrom (s : Source) (found : List Entry) : Nat → ByteReader (List Entry)
  | 0 => return found
  | n + 1 => do entriesFrom s ((← entry s).toList ++ found) n

def directory (s : Source) : ByteReader (List Entry) := do
  let count ← if s.isBig then s.place else s.number 2
  let found ← entriesFrom s [] count
  let _ ← s.place
  return found

namespace Entry

/-- The values of an entry. Those that take more bytes than a place stand elsewhere. -/
def values? (s : Source) (e : Entry) : Option (List Nat) := do
  let size ← valueSize? e.kind
  guard (e.count = 0 ∨ isNatural e.kind)
  let start ← s.place.read? e.content
  let content := if size * e.count ≤ s.placeSize then e.content else s.file.drop start
  return s.numbers size e.count (← (bytes (size * e.count)).read? content)

end Entry

structure Tags where
  source : Source
  entries : List Entry
deriving DecidableEq, Repr

namespace Tags

def find? (t : Tags) (tag : Nat) : Option Entry := t.entries.find? (·.tag = tag)

def has (t : Tags) (tag : Nat) : Bool := (t.find? tag).isSome

def listOr (t : Tags) (default : List Nat) (limit tag : Nat) : Option (List Nat) :=
  match t.find? tag with
  | none => some default
  | some e => (e.values? t.source).filter fun values => values.all (· < limit)

def value? (t : Tags) (limit tag : Nat) : Option Nat := do
  match ← (← t.find? tag).values? t.source with
  | [n] => if n < limit then some n else none
  | _ => none

def valueOr (t : Tags) (default limit tag : Nat) : Option Nat :=
  if t.has tag then t.value? limit tag else some default

end Tags

inductive ColorModel where
  | grayFromWhite | gray | grayAlpha | colors | inks
deriving DecidableEq, Repr

inductive Packing where
  | stored | words | deflated
deriving DecidableEq, Repr

inductive Prediction where
  | absent | differences | bytePlanes
deriving DecidableEq, Repr

structure Header where
  width : Nat
  height : Nat
  model : ColorModel
  depth : Nat
  bits : Nat
  packing : Packing
  prediction : Prediction
  chunkWidth : Nat
  chunkHeight : Nat
  chunks : List (Nat × Nat)
deriving DecidableEq, Repr

/-- The meaning of samples, where a pixel of two needs a word that the second is alpha. -/
def colorModel? (color depth bits : Nat) (extra : List Nat) : Option ColorModel :=
  match color, depth with
  | 0, 1 => if [1, 8, 16].contains bits then some .grayFromWhite else none
  | 1, 1 => if [1, 8, 16].contains bits then some .gray else none
  | 1, 2 => if [8, 16].contains bits ∧ (extra = [1] ∨ extra = [2]) then some .grayAlpha else none
  | 2, 3 | 2, 4 => if [8, 16, 32].contains bits then some .colors else none
  | 5, 4 => if [8, 16].contains bits then some .inks else none
  | _, _ => none

def packing? : Nat → Option Packing
  | 1 => some .stored
  | 5 => some .words
  | 8 | 32946 => some .deflated
  | _ => none

/-- The prediction with a number. One of byte planes is for floats, which samples of 32 bits are when
a format says so. -/
def prediction? (n bits : Nat) (isFloat : Bool) : Option Prediction :=
  match n with
  | 1 => some .absent
  | 2 => if bits ≠ 1 ∧ !isFloat then some .differences else none
  | 3 => if isFloat then some .bytePlanes else none
  | _ => none

def chunkSize? (t : Tags) (width height : Nat) : Option (Nat × Nat) :=
  match t.has 279, t.has 273, t.has 325, t.has 324 with
  | true, true, false, false => return (width, ← t.valueOr height UInt32.size 278)
  | false, false, true, true => return (← t.value? UInt32.size 322, ← t.value? UInt32.size 323)
  | _, _, _, _ => none

def chunksAlong (length chunk : Nat) : Nat := (length - 1) / chunk + 1

def header? (t : Tags) : Option Header := do
  let width ← t.value? UInt32.size 256
  let height ← t.value? UInt32.size 257
  guard (0 < width ∧ 0 < height)
  let short := 65536
  let color ← t.value? short 262
  let depth ← t.valueOr 1 short 277
  let formats ← t.listOr [] short 339
  let sizes ← t.listOr [1] 256 258
  let bits ← sizes.head?
  guard ((sizes.length = depth ∨ sizes.length = 1) ∧ sizes.all (· = bits))
  let isFloat := formats.head? = some 3
  guard (formats.all fun format => if isFloat then format = 3 ∧ bits = 32 else format = 1 ∧ bits ≤ 16)
  let model ← colorModel? color depth bits (← t.listOr [] short 338)
  let packing ← packing? (← t.valueOr 1 short 259)
  let prediction ← prediction? (← t.valueOr 1 short 317) bits isFloat
  guard ((← t.valueOr 1 short 284) = 1)
  let (chunkWidth, chunkHeight) ← chunkSize? t width height
  guard (0 < chunkWidth ∧ 0 < chunkHeight)
  let starts ← t.listOr [] (1 <<< 64) (if t.has 273 then 273 else 324)
  let counts ← t.listOr [] (1 <<< 64) (if t.has 273 then 279 else 325)
  guard (starts.length = chunksAlong width chunkWidth * chunksAlong height chunkHeight)
  guard (counts.length = starts.length)
  return ⟨width, height, model, depth, bits, packing, prediction, chunkWidth, chunkHeight,
    starts.zip counts⟩

namespace Header

def rowSize (h : Header) (pixels : Nat) : Nat := (h.bits * h.depth * pixels + 7) / 8

def content? (h : Header) (file : List UInt8) (start count needed : Nat) : Option (List UInt8) :=
  let rest := file.drop start
  match h.packing with
  | .stored => (bytes needed).read? rest
  | .words => Lzw.symbols? ⟨8, true, true⟩ needed (rest.take count)
  | .deflated => do
    let content ← Deflate.unwrap? true ⟨rest.toArray⟩
    (bytes needed).read? content.data.toList

def addBack (distance modulus : Nat) (ns : List Nat) : List Nat :=
  (ns.foldl (fun (sums : Array Nat) n =>
    let before := if distance ≤ sums.size then sums.getD (sums.size - distance) 0 else 0
    sums.push ((n + before) % modulus)) #[]).toList

def samples (h : Header) (s : Source) (count : Nat) (row : List UInt8) : List Nat :=
  match h.prediction with
  | .bytePlanes =>
    let sums := (addBack h.depth 256 (row.map UInt8.toNat)).toArray
    let plane := sums.size / 4
    (List.range count).map fun i =>
      [0, 1, 2, 3].foldl (fun n k => 256 * n + sums.getD (plane * k + i) 0) 0
  | prediction =>
    let given := if h.bits < 8 then
        (List.range count).map (packedSample h.bits row.toArray 0)
      else s.numbers (h.bits / 8) count row
    if prediction = .differences then addBack h.depth (1 <<< h.bits) given else given

/-- The rows of samples of a chunk in a column and row of chunks. What it has beyond the image is left
out, and the last bytes of that may be missing. -/
def chunk? (h : Header) (s : Source) (column row start count : Nat) :
    Option (Array (Array Nat)) := do
  let width := min h.chunkWidth (h.width - column * h.chunkWidth)
  let height := min h.chunkHeight (h.height - row * h.chunkHeight)
  let stride := h.rowSize h.chunkWidth
  let used := if h.prediction = .bytePlanes then stride else h.rowSize width
  let content := (← h.content? s.file start count (stride * (height - 1) + used)).toArray
  return ((List.range height).map fun y =>
    (h.samples s (width * h.depth)
      (content.extract (stride * y) (stride * y + used)).toList).toArray).toArray

def toByte (h : Header) (n : Nat) : UInt8 :=
  if h.bits = 1 then (255 * n).toUInt8
  else if h.bits = 8 then n.toUInt8
  else if h.bits = 16 then narrowSample n
  else levelOfFloat (Float32.ofBits n.toUInt32)

/-- The color that is left by an ink and black, out of `limit`, in single precision. -/
def withoutInk (limit ink black : Nat) : Nat :=
  let most := limit.toFloat32
  ((most - ink.toFloat32) * (1 - black.toFloat32 / most)).toUInt16.toNat

def pixel (h : Header) (samples : List Nat) : Pixel :=
  match h.model, samples with
  | .inks, [cyan, magenta, yellow, black] =>
    let limit := 1 <<< h.bits - 1
    .ofSamples ([cyan, magenta, yellow].map fun ink => h.toByte (withoutInk limit ink black))
  | .grayFromWhite, _ => .ofSamples (samples.map fun n => 255 - h.toByte n)
  | _, _ => .ofSamples (samples.map h.toByte)

end Header

def opening (file : List UInt8) : ByteReader (Source × Nat) := do
  let highFirst ← match (← bytes 2).map Char.ofUInt8 with
    | ['I', 'I'] => pure false
    | ['M', 'M'] => pure true
    | _ => failure
  let small : Source := ⟨file, highFirst, false⟩
  let version ← small.number 2
  if version = 42 then return (small, ← small.place)
  guard (version = 43 ∧ (← small.number 2) = 8 ∧ (← small.number 2) = 0)
  let big : Source := { small with isBig := true }
  return (big, ← big.place)

def decode? (file : List UInt8) : Option Raster := do
  let (s, start) ← (opening file).read? file
  let h ← header? ⟨s, ← (directory s).read? (file.drop start)⟩
  let across := chunksAlong h.width h.chunkWidth
  let chunks ← h.chunks.zipIdx.mapM fun ((start, count), i) =>
    h.chunk? s (i % across) (i / across) start count
  let chunks := chunks.toArray
  return Raster.ofFn h.width h.height fun x y =>
    let chunk := chunks.getD (y / h.chunkHeight * across + x / h.chunkWidth) #[]
    let row := chunk.getD (y % h.chunkHeight) #[]
    let start := x % h.chunkWidth * h.depth
    h.pixel (row.extract start (start + h.depth)).toList

end Quilt.Tiff
