import Quilt.Error

namespace Quilt

/-- Which axis the grid rows run along. -/
inductive Layout where
  | rowsDown | rowsAcross
deriving DecidableEq, Repr

namespace Layout

def all : List Layout := [rowsDown, rowsAcross]

def name : Layout → String
  | rowsDown => "rows_down"
  | rowsAcross => "rows_across"

/-- Turns a pair along the row and the column axis into a pair along `x` and `y`, and back. -/
def place {α : Type} (layout : Layout) (alongRows alongCols : α) : α × α :=
  match layout with
  | rowsDown => (alongCols, alongRows)
  | rowsAcross => (alongRows, alongCols)

end Layout

structure RenderOptions where
  maxPixels : Nat := 16000000
  maxIterations : Nat := 64
  layout : Layout := .rowsDown
deriving DecidableEq, Repr

def inWord (n : Nat) : Option Nat := if n < UInt64.size then some n else none

/-- How many pixels a side takes that is split into `base` parts again and again. From two parts on,
sixty-four splits are past every word, and below two the extent does not grow, so no higher power
is taken. -/
def extent? (base depth : Nat) : Option Nat := inWord (Nat.pow base (min depth 64))

/-- The extents along the rows and along the columns of a grid subdivided to a depth. They and their
product are words of 64 bits before they are held to the limit, and then each must fit in 32 bits. -/
def extents? (rows cols depth maxPixels : Nat) : Option (Nat × Nat) := do
  let alongRows ← extent? rows depth
  let alongCols ← extent? cols depth
  let area ← inWord (alongRows * alongCols)
  guard (area ≤ maxPixels)
  guard (alongRows < UInt32.size)
  guard (alongCols < UInt32.size)
  return (alongRows, alongCols)

def rasterSize (rows cols depth : Nat) (opts : RenderOptions) : Except Error (Nat × Nat) :=
  if opts.maxIterations < depth then .error (.tooDeep depth opts.maxIterations)
  else
    match extents? rows cols depth opts.maxPixels with
    | some (alongRows, alongCols) => .ok (opts.layout.place alongRows alongCols)
    | none => .error (.tooManyPixels rows cols depth opts.maxPixels)

end Quilt
