import Quilt.Color
import Quilt.Text.Blank

namespace Quilt

inductive Op where
  | add | sub | mul | div
deriving DecidableEq, Repr

namespace Op

def all : List Op := [add, sub, mul, div]

def symbol : Op → Char
  | add => '+'
  | sub => '-'
  | mul => '*'
  | div => '/'

def name : Op → String
  | add => "Plus"
  | sub => "Minus"
  | mul => "Star"
  | div => "Slash"

def ofSymbol? (c : Char) : Option Op :=
  all.find? fun op => op.symbol == c

theorem ofSymbol?_symbol (op : Op) : ofSymbol? op.symbol = some op := by
  cases op <;> rfl

theorem symbol_of_ofSymbol? {c : Char} {op : Op} (h : ofSymbol? c = some op) : op.symbol = c := by
  simpa using List.find?_some h

end Op

namespace Formula

/-- What is wrong with a formula, at the offset that `Error` adds. -/
inductive Fault where
  | missingDigit (channel : Channel)
  | strayCharacter (c : Char)
  | unknownSlot (channel : Channel) (slot numcolors : Nat)
  | missingOperand (found : Option Op)
  | missingOperator (found : List Char)
deriving DecidableEq, Repr

def Fault.message : Fault → String
  | .missingDigit channel =>
    "expected a color index digit after '" ++ channel.letter.toString ++ "'"
  | .strayCharacter c => "unexpected character '" ++ c.toString ++ "'"
  | .unknownSlot channel slot numcolors =>
    "component " ++ channel.letter.toString ++ s!"{slot} is outside the {numcolors} available colors"
  | .missingOperand none => "expected a value, found end of input"
  | .missingOperand (some op) => "expected a value, found " ++ op.name
  | .missingOperator found => "expected an operator, found '" ++ String.ofList found ++ "'"

structure Error where
  offset : Nat
  fault : Fault
deriving DecidableEq, Repr

def Error.message (e : Error) : String :=
  s!"expr error at byte {e.offset}: " ++ e.fault.message

inductive TokenKind where
  | component (channel : Channel) (digit : Char)
  | number (digits : List Char)
  | operator (op : Op)
  | finish
deriving DecidableEq, Repr

def TokenKind.text : TokenKind → List Char
  | .component channel digit => [channel.letter, digit]
  | .number digits => digits
  | .operator op => [op.symbol]
  | .finish => []

/-- A token with the half-open range of bytes that it covers in the UTF-8 encoding of its source. -/
structure Token where
  kind : TokenKind
  start : Nat
  stop : Nat
deriving DecidableEq, Repr

def byteLength : List Char → Nat
  | [] => 0
  | c :: cs => c.utf8Size + byteLength cs

def TokenKind.placedAt (kind : TokenKind) (offset : Nat) : Token :=
  ⟨kind, offset, offset + byteLength kind.text⟩

theorem length_dropWhile_le (p : Char → Bool) (cs : List Char) :
    (cs.dropWhile p).length ≤ cs.length :=
  (List.dropWhile_sublist p).length_le

/-- The tokens of a source that starts at the given offset. A run of digits is one number, and a
channel letter takes the digit right after it. The list ends with `finish`. -/
def scan (offset : Nat) : List Char → Except Error (List Token)
  | [] => .ok [TokenKind.finish.placedAt offset]
  | c :: rest =>
    if Text.isBlank c then scan (offset + c.utf8Size) rest
    else if let some op := Op.ofSymbol? c then
      (scan (offset + 1) rest).map ((TokenKind.operator op).placedAt offset :: ·)
    else if let some channel := Channel.ofLetter? c then
      match rest with
      | d :: rest' =>
        if d.isDigit then
          (scan (offset + 2) rest').map ((TokenKind.component channel d).placedAt offset :: ·)
        else .error ⟨offset + 1, .missingDigit channel⟩
      | [] => .error ⟨offset + 1, .missingDigit channel⟩
    else if c.isDigit then
      let digits := c :: rest.takeWhile Char.isDigit
      (scan (offset + digits.length) (rest.dropWhile Char.isDigit)).map
        ((TokenKind.number digits).placedAt offset :: ·)
    else .error ⟨offset, .strayCharacter c⟩
termination_by cs => cs.length
decreasing_by
  all_goals simp only [List.length_cons]
  · omega
  · omega
  · omega
  · have := length_dropWhile_le Char.isDigit rest
    omega

def tokens (source : String) : Except Error (List Token) := scan 0 source.toList

end Formula

end Quilt
