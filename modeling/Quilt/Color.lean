import Quilt.Number.Binary64

namespace Quilt

inductive Channel where
  | red | green | blue
deriving DecidableEq, Repr, BEq

namespace Channel

def all : List Channel := [red, green, blue]

def index : Channel → Nat
  | red => 0
  | green => 1
  | blue => 2

def letter : Channel → Char
  | red => 'r'
  | green => 'g'
  | blue => 'b'

def ofLetter? (c : Char) : Option Channel :=
  all.find? fun ch => ch.letter == c

theorem ofLetter?_letter (ch : Channel) : ofLetter? ch.letter = some ch := by
  cases ch <;> rfl

theorem letter_of_ofLetter? {c : Char} {ch : Channel} (h : ofLetter? c = some ch) :
    ch.letter = c := by
  simpa using List.find?_some h

end Channel

/-- The equality test `==` is that of the doubles: a NaN differs from itself and the zeros agree. -/
structure Color where
  red : Float
  green : Float
  blue : Float
deriving BEq, DecidableEq, Repr

namespace Color

def black : Color := ⟨0, 0, 0⟩

def get (c : Color) : Channel → Float
  | .red => c.red
  | .green => c.green
  | .blue => c.blue

def ofChannels (f : Channel → Float) : Color := ⟨f .red, f .green, f .blue⟩

@[simp] theorem get_ofChannels (f : Channel → Float) (ch : Channel) : (ofChannels f).get ch = f ch := by
  cases ch <;> rfl

@[ext] theorem ext_get {a b : Color} (h : ∀ ch, a.get ch = b.get ch) : a = b := by
  cases a; cases b
  have hr := h .red
  have hg := h .green
  have hb := h .blue
  simp only [get] at hr hg hb
  rw [hr, hg, hb]

end Color

/-- A channel as a byte: NaN and all below zero are 0, all above 255 is 255, and halves between go
up. -/
def clampChannel (x : Float) : UInt8 :=
  let bits := Binary64.magnitude x
  if Binary64.isNegative x || Binary64.infinity < bits then 0
  else if bits = Binary64.infinity then 255
  else
    let rounded := (2 * Binary64.units bits + Binary64.unitsPerOne) / (2 * Binary64.unitsPerOne)
    UInt8.ofNat (min 255 rounded)

theorem clampChannel_ofByte (b : UInt8) : clampChannel b.toFloat = b := by
  have hall : ∀ n < 256, clampChannel (UInt8.ofNat n).toFloat = UInt8.ofNat n := by
    decide +kernel
  simpa using hall b.toNat b.toNat_lt

structure Pixel where
  red : UInt8
  green : UInt8
  blue : UInt8
  alpha : UInt8
deriving DecidableEq, Repr

namespace Pixel

/-- Pixels made from colors are opaque. -/
def ofColor (c : Color) : Pixel :=
  ⟨clampChannel c.red, clampChannel c.green, clampChannel c.blue, 255⟩

def toColor (p : Pixel) : Color := ⟨p.red.toFloat, p.green.toFloat, p.blue.toFloat⟩

theorem ofColor_toColor {p : Pixel} (h : p.alpha = 255) : ofColor p.toColor = p := by
  simp only [ofColor, toColor, clampChannel_ofByte, ← h]

def bytes (p : Pixel) : List UInt8 := [p.red, p.green, p.blue, p.alpha]

def clear : Pixel := ⟨0, 0, 0, 0⟩

end Pixel

end Quilt
