import Quilt.Formula.Token

namespace Quilt.Formula

/-- Whether a source may be cut at an index: at its end, or before the first byte of a character. -/
def isBoundary (source : String) (index : Nat) : Bool := String.Pos.Raw.isValid source ⟨index⟩

/-- The first character of the text from an index on, if the source may be cut there. The empty text
has none. -/
def charFrom? (source : String) (index : Nat) : Option (Option Char) :=
  if isBoundary source index then some (source.toByteArray.utf8DecodeChar? index) else none

def slice? (source : String) (start stop : Nat) : Option (List Char) :=
  if start ≤ stop && isBoundary source start && isBoundary source stop then
    some (String.Pos.Raw.extract source ⟨start⟩ ⟨stop⟩).toList
  else none

/-- The digit that a byte is. The byte may belong to a longer character. -/
def digitAt? (bytes : ByteArray) (index : Nat) : Option Char :=
  (bytes[index]?.map Char.ofUInt8).filter Char.isDigit

def digitsEnd (bytes : ByteArray) (index : Nat) : Nat :=
  if _h : (digitAt? bytes index).isSome then digitsEnd bytes (index + 1) else index
termination_by bytes.size - index
decreasing_by
  have hlt : index < bytes.size := by
    by_cases hlt : index < bytes.size
    · exact hlt
    · simp [digitAt?, getElem?_neg bytes index hlt] at _h
  omega

structure Cursor where
  index : Nat
  found : List Token
deriving DecidableEq, Repr

def Cursor.take (cursor : Cursor) (kind : TokenKind) (stop : Nat) : Cursor :=
  ⟨stop, cursor.found ++ [⟨kind, cursor.index, stop⟩]⟩

/-- What comes of a round: the loop goes on, or it is over, or it has cut a character in two. -/
inductive Round where
  | next (cursor : Cursor)
  | over (result : Except Error (List Token))
  | torn

/-- One round of the loop. It looks at the character at the cursor, and behind a channel letter at a
single byte. -/
def round (source : String) (cursor : Cursor) : Round :=
  match charFrom? source cursor.index with
  | none => .torn
  | some none =>
    .over (.ok (cursor.found ++ [⟨.finish, source.utf8ByteSize, source.utf8ByteSize⟩]))
  | some (some c) =>
    if Text.isBlank c then .next ⟨cursor.index + c.utf8Size, cursor.found⟩
    else if c.isDigit then
      let stop := digitsEnd source.toByteArray cursor.index
      match slice? source cursor.index stop with
      | some digits => .next (cursor.take (.number digits) stop)
      | none => .torn
    else if let some channel := Channel.ofLetter? c then
      match digitAt? source.toByteArray (cursor.index + 1) with
      | some digit => .next (cursor.take (.component channel digit) (cursor.index + 2))
      | none => .over (.error ⟨cursor.index + 1, .missingDigit channel⟩)
    else if let some op := Op.ofSymbol? c then
      .next (cursor.take (.operator op) (cursor.index + 1))
    else .over (.error ⟨cursor.index, .strayCharacter c⟩)

def rounds (source : String) : Nat → Cursor → Round
  | 0, cursor => .next cursor
  | count + 1, cursor =>
    match round source cursor with
    | .next cursor => rounds source count cursor
    | last => last

end Quilt.Formula
