namespace Quilt.Text

/-- The digits of a number, with zeros in front up to the given width. -/
def paddedDigits (base width n : Nat) : List Char :=
  let digits := Nat.toDigits base n
  List.replicate (width - digits.length) '0' ++ digits

theorem le_length_paddedDigits (base width n : Nat) :
    width ≤ (paddedDigits base width n).length := by
  simp only [paddedDigits, List.length_append, List.length_replicate]
  omega

def readDigits : List Char → Option Nat
  | [] => none
  | cs => if cs.all Char.isDigit then some (Nat.ofDigitChars 10 cs 0) else none

def readNatural (limit : Nat) (cs : List Char) : Option Nat := do
  let n ← readDigits (match cs with | '+' :: digits => digits | _ => cs)
  if n < limit then some n else none

end Quilt.Text
