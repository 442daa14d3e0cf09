import Quilt.Grid.Basic
import Quilt.Render.Size

namespace Quilt

/-- A state that has arrived at a pixel. -/
structure LeafCall where
  x : UInt32
  y : UInt32
  state : ColorState
deriving DecidableEq, Repr

/-- How far apart the children of a block start. -/
structure Stride where
  alongRows : UInt32
  alongCols : UInt32
deriving DecidableEq, Repr

/-- The product, or the greatest word when it does not fit. -/
def saturatingMul (a b : UInt32) : UInt32 :=
  .ofNat (min (a.toNat * b.toNat) (UInt32.size - 1))

namespace Grid

def strideAbove (g : Grid) (stride : Stride) : Stride :=
  ⟨saturatingMul stride.alongRows (.ofNat g.rows), saturatingMul stride.alongCols (.ofNat g.cols)⟩

/-- The strides on the way from the root to a pixel. The last ones are a single pixel. -/
def strides (g : Grid) : Nat → List Stride
  | 0 => []
  | depth + 1 =>
    match g.strides depth with
    | [] => [⟨1, 1⟩]
    | stride :: below => g.strideAbove stride :: stride :: below

def childOffset (layout : Layout) (stride : Stride) (row col : Nat) : UInt32 × UInt32 :=
  layout.place (.ofNat row * stride.alongRows) (.ofNat col * stride.alongCols)

/-- Visits the leaves under a block, child by child in row-major order. Places are words of 32
bits. -/
def walk {β : Type} (layout : Layout) (entries : List Entry) (visit : β → LeafCall → β) :
    List Stride → UInt32 → UInt32 → ColorState → β → β
  | [], x, y, s, acc => visit acc ⟨x, y, s⟩
  | stride :: below, x, y, s, acc =>
    entries.foldl (fun acc e =>
      let (dx, dy) := childOffset layout stride e.row e.col
      walk layout entries visit below (x + dx) (y + dy) (e.cell.apply s) acc) acc

def run {β : Type} (g : Grid) (layout : Layout) (depth : Nat) (visit : β → LeafCall → β)
    (s : ColorState) (acc : β) : β :=
  walk layout g.entries visit (g.strides depth) 0 0 s acc

/-- The cells on the way to a place, from its coordinates along the row and the column axis. -/
def pathAlong : List Stride → UInt32 → UInt32 → List (Nat × Nat)
  | [], _, _ => []
  | stride :: below, alongRows, alongCols =>
    ((alongRows / stride.alongRows).toNat, (alongCols / stride.alongCols).toNat) ::
      pathAlong below (alongRows % stride.alongRows) (alongCols % stride.alongCols)

/-- The cells on the way to the pixel `(x, y)`, root first. -/
def pathTo (g : Grid) (layout : Layout) (depth : Nat) (x y : UInt32) : List (Nat × Nat) :=
  let (alongRows, alongCols) := layout.place x y
  pathAlong (g.strides depth) alongRows alongCols

end Grid

end Quilt
