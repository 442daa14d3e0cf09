import Quilt.Image.ByteReader
import Quilt.Image.Samples
import Quilt.Text.Blank
import Quilt.Text.Digits
import Quilt.Text.Words

namespace Quilt.Radiance

open ByteReader

def dropDigits (cs : List Char) : List Char := cs.dropWhile Char.isDigit

def dropSign : List Char → List Char
  | '+' :: cs => cs
  | '-' :: cs => cs
  | cs => cs

def isExponent : List Char → Bool
  | [] => true
  | c :: cs => c.toLower == 'e' && !(dropSign cs).isEmpty && (dropDigits (dropSign cs)).isEmpty

def isNumber (cs : List Char) : Bool :=
  let cs := dropSign cs
  let digits := cs.takeWhile Char.isDigit
  let named := ["inf", "infinity", "nan"].contains (String.ofList (cs.map Char.toLower))
  named || match dropDigits cs with
    | '.' :: rest =>
      (!digits.isEmpty || (rest.head?.map Char.isDigit).getD false) && isExponent (dropDigits rest)
    | rest => !digits.isEmpty && isExponent rest

def words (cs : List Char) : List (List Char) := Text.words Text.isBlank cs

def isFit (text : List Char) : Bool :=
  let key := text.takeWhile (· ≠ '=')
  let value := text.drop (key.length + 1)
  if text.head? = some '#' ∨ key.isEmpty ∨ value.isEmpty then true
  else
    let value := Text.trim Text.isBlank value
    match String.ofList (Text.trim Text.isBlank key) with
    | "FORMAT" => value == "32-bit_rle_rgbe".toList
    | "EXPOSURE" | "PIXASPECT" => isNumber value
    | "COLORCORR" => (words value).length == 3 && (words value).all isNumber
    | _ => true

def size? (text : List Char) : Option (Nat × Nat) :=
  match words text with
  | [['-', 'Y'], height, ['+', 'X'], width] => do
    return (← Text.readNatural UInt32.size width, ← Text.readNatural UInt32.size height)
  | _ => none

structure Spot where
  red : UInt8
  green : UInt8
  blue : UInt8
  exponent : UInt8
deriving DecidableEq, Repr

namespace Spot

/-- A brightness as a byte, where full is `2 ^ (136 - exponent)` and no brightness is above full. -/
def level (exponent brightness : UInt8) : UInt8 :=
  let (e, n) := (exponent.toNat, brightness.toNat)
  if e = 0 then 0
  else if 136 ≤ e then if n = 0 then 0 else 255
  else
    let unit := 1 <<< (136 - e)
    (min 255 ((2 * 255 * n + unit) / (2 * unit))).toUInt8

def pixel (s : Spot) : Pixel :=
  ⟨level s.exponent s.red, level s.exponent s.green, level s.exponent s.blue, 255⟩

end Spot

def spot : ByteReader Spot := do
  return ⟨← byte, ← byte, ← byte, ← byte⟩

/-- Goes on with a row of spots, the last one first. Marks in a row count in powers of 256. -/
def spotsFrom (width weight : Nat) (row : List Spot) : Nat → ByteReader (List Spot)
  | 0 => failure
  | bound + 1 =>
    if row.length = width then return row
    else do
      let s ← spot
      let (weight, added) ← if s.red = 1 ∧ s.green = 1 ∧ s.blue = 1 then
          match row with
          | [] => failure
          | last :: _ => do
            let count := s.exponent.toNat * weight
            guard (row.length + count ≤ width)
            pure (256 * weight, List.replicate count last)
        else pure (1, [s])
      spotsFrom width weight (added ++ row) bound

def runsFrom (width : Nat) (row : List UInt8) : Nat → ByteReader (List UInt8)
  | 0 => failure
  | bound + 1 =>
    if row.length = width then return row
    else do
      let mark := (← byte).toNat
      let count := if mark ≤ 128 then mark else mark - 128
      guard (row.length + count ≤ width)
      let added ← if mark ≤ 128 then bytes count else pure (List.replicate count (← byte))
      runsFrom width (row ++ added) bound

/-- A row starts with two twos and a byte below 128 when it comes as four rows of bytes. -/
def row (width : Nat) : ByteReader (List Spot) := do
  let bound := (← get).length + 1
  let rest ← get
  let first ← spot
  if first.red = 2 ∧ first.green = 2 ∧ first.blue < 128 then do
    let reds ← runsFrom width [] bound
    let greens ← runsFrom width [] bound
    let blues ← runsFrom width [] bound
    let exponents ← runsFrom width [] bound
    return (((reds.zip greens).zip blues).zip exponents).map fun (((r, g), b), e) => ⟨r, g, b, e⟩
  else do
    set rest
    return (← spotsFrom width 1 [] bound).reverse

def rowsFrom (width : Nat) : Nat → ByteReader (List (List Spot))
  | 0 => return []
  | n + 1 => do
    let first ← row width
    return first :: (← rowsFrom width n)

def decode : ByteReader Raster := do
  signature "#?RADIANCE"
  let _ ← textLine
  let lines ← linesUntil List.isEmpty
  guard (lines.all isFit)
  let (width, height) ← size? (← textLine)
  if width = 0 then return Raster.ofFn 0 height fun _ _ => .clear
  let spots := (← rowsFrom width height).flatten.toArray
  return Raster.ofFn width height fun x y =>
    ((spots[y * width + x]?).map Spot.pixel).getD .clear

end Quilt.Radiance
