import Quilt.Grid.Cell

namespace Quilt

inductive GridKind where
  | arithmetic | permutation
deriving DecidableEq, Repr

def GridKind.name : GridKind → String
  | arithmetic => "arithmetic"
  | permutation => "permutation"

structure Grid where
  rows : Nat
  cols : Nat
  numcolors : Nat
  kind : GridKind
  cells : Array Cell
deriving DecidableEq, Repr

namespace Grid

structure Entry where
  row : Nat
  col : Nat
  cell : Cell
deriving DecidableEq, Repr

def cell? (g : Grid) (row col : Nat) : Option Cell :=
  if row < g.rows ∧ col < g.cols then g.cells[row * g.cols + col]? else none

/-- The cells that a path names. A place outside the grid names none. -/
def cellsAlong (g : Grid) (path : List (Nat × Nat)) : List Cell :=
  path.filterMap fun (row, col) => g.cell? row col

def entries (g : Grid) : List Entry :=
  g.cells.toList.zipIdx.map fun (cell, i) => ⟨i / g.cols, i % g.cols, cell⟩

end Grid

/-- The cells of a request, row by row: formulas for every channel of every color, or the slots
that every color is taken from. -/
inductive Functions where
  | expressions (rows : List (List (List (List String))))
  | permutations (rows : List (List (List Nat)))
deriving DecidableEq, BEq, Repr

namespace Functions

def formName : Functions → String
  | expressions _ => "expressions"
  | permutations _ => "permutations"

def firstWidth {α : Type} : List (List α) → Nat
  | [] => 0
  | row :: _ => row.length

def dims : Functions → Nat × Nat
  | expressions rows => (rows.length, firstWidth rows)
  | permutations rows => (rows.length, firstWidth rows)

end Functions

end Quilt
