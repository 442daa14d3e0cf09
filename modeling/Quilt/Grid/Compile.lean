import Quilt.Formula.Parser
import Quilt.Grid.Basic

namespace Quilt.Grid

/-- The number of rows and their common width. -/
def rectangle {α : Type} (lines : List (List α)) : Except Error (Nat × Nat) :=
  match lines with
  | [] => .error .noRows
  | first :: _ =>
    if first.isEmpty then .error .noColumns
    else
      match lines.zipIdx.find? fun (line, _) => line.length ≠ first.length with
      | some (line, row) => .error (.raggedRow row line.length first.length)
      | none => .ok (lines.length, first.length)

def compileChannel (numcolors row col color channel : Nat) (source : String) :
    Except Error Formula :=
  (Formula.compile numcolors source).mapError (Error.cellFormula row col color channel)

def compileColor (numcolors row col color : Nat) (channels : List String) :
    Except Error ColorFormula :=
  match channels with
  | [red, green, blue] => do
    let r ← compileChannel numcolors row col color 0 red
    let g ← compileChannel numcolors row col color 1 green
    let b ← compileChannel numcolors row col color 2 blue
    return ⟨r, g, b⟩
  | _ => .error (.cellChannels row col color channels.length)

def compileCell (numcolors row col : Nat) (colors : List (List String)) : Except Error Cell :=
  if colors.length ≠ numcolors then .error (.cellColors row col colors.length numcolors)
  else do
    let outputs ← colors.zipIdx.mapM fun (channels, color) =>
      compileColor numcolors row col color channels
    return .arithmetic outputs

def compileSelection (numcolors row col : Nat) (slots : List Nat) : Except Error Cell :=
  if slots.length ≠ numcolors then .error (.cellSelection row col slots.length numcolors)
  else
    match slots.find? (numcolors ≤ ·) with
    | some slot => .error (.cellSlot row col slot numcolors)
    | none => .ok (.selection slots)

/-- Compiles the cells of a rectangle of descriptions in row-major order, each of them wholly before
the next. -/
def compileCells {α : Type} (compileAt : Nat → Nat → α → Except Error Cell)
    (lines : List (List α)) : Except Error (List Cell) := do
  let rows ← lines.zipIdx.mapM fun (line, row) =>
    line.zipIdx.mapM fun (item, col) => compileAt row col item
  return rows.flatten

def compileExpressions (numcolors : Nat) (lines : List (List (List (List String)))) :
    Except Error Grid := do
  Cell.checkColorCount numcolors
  let (rows, cols) ← rectangle lines
  let cells ← compileCells (compileCell numcolors) lines
  return ⟨rows, cols, numcolors, .arithmetic, cells.toArray⟩

def compilePermutations (numcolors : Nat) (lines : List (List (List Nat))) : Except Error Grid := do
  Cell.checkColorCount numcolors
  let (rows, cols) ← rectangle lines
  let cells ← compileCells (compileSelection numcolors) lines
  return ⟨rows, cols, numcolors, .permutation, cells.toArray⟩

def compile (numcolors : Nat) : Functions → Except Error Grid
  | .expressions lines => compileExpressions numcolors lines
  | .permutations lines => compilePermutations numcolors lines

def identity (rows cols numcolors : Nat) : Except Error Grid := do
  let cell ← Cell.identity numcolors
  if rows = 0 ∨ cols = 0 then throw .emptyGrid
  return ⟨rows, cols, numcolors, .permutation, Array.replicate (rows * cols) cell⟩

end Quilt.Grid
