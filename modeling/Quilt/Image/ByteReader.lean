namespace Quilt

def numberOfBytes (bs : List UInt8) : Nat := bs.foldr (fun b n => b.toNat + 256 * n) 0

abbrev ByteReader := StateT (List UInt8) Option

namespace ByteReader

def read? {α : Type} (reader : ByteReader α) (file : List UInt8) : Option α :=
  (reader.run file).map (·.1)

def bytes (n : Nat) : ByteReader (List UInt8) := fun rest =>
  let taken := rest.take n
  if taken.length = n then some (taken, rest.drop n) else none

def byte : ByteReader UInt8
  | [] => none
  | b :: rest => some (b, rest)

def skip (n : Nat) : ByteReader Unit := do
  let _ ← bytes n

def lowFirst (n : Nat) : ByteReader Nat := return numberOfBytes (← bytes n)

def highFirst (n : Nat) : ByteReader Nat := return numberOfBytes (← bytes n).reverse

def signature (text : String) : ByteReader Unit := do
  guard ((← bytes text.utf8ByteSize) = text.toUTF8.data.toList)

/-- The characters of a text in UTF-8. In one that is not, all bytes beyond ASCII are replaced. -/
def charactersOf (bs : List UInt8) : List Char :=
  match String.fromUTF8? ⟨bs.toArray⟩ with
  | some text => text.toList
  | none => bs.map fun b => if b < 128 then Char.ofUInt8 b else '\uFFFD'

/-- The characters up to the end of a line, which is taken as well. The last line of a file needs
no end. -/
def textLine : ByteReader (List Char) := fun rest =>
  if rest.isEmpty then none
  else
    let text := rest.takeWhile (· ≠ 10)
    some (charactersOf text, rest.drop (text.length + 1))

def linesWithin (isLast : List Char → Bool) : Nat → ByteReader (List (List Char))
  | 0 => failure
  | bound + 1 => do
    let text ← textLine
    if isLast text then return [text] else return text :: (← linesWithin isLast bound)

/-- The lines up to one that is the last of its kind. Each takes a byte, which bounds their
number. -/
def linesUntil (isLast : List Char → Bool) : ByteReader (List (List Char)) := do
  linesWithin isLast (← get).length

end ByteReader

end Quilt
