import Quilt.Render.Sink
import Quilt.Render.Subdivision

namespace Quilt

structure Plan where
  grid : Grid
  depth : Nat
  layout : Layout
  width : Nat
  height : Nat
deriving DecidableEq, Repr

/-- The way from the root to one pixel. -/
structure Leaf where
  path : List (Nat × Nat)
  cells : List Cell
deriving DecidableEq, Repr

namespace Leaf

def replay (leaf : Leaf) (s : ColorState) : ColorState :=
  leaf.cells.foldl (fun s cell => cell.apply s) s

def pixel (leaf : Leaf) (s : ColorState) : Pixel := .ofColor (leaf.replay s).primary

end Leaf

def Raster.putLeaf (r : Raster) (call : LeafCall) : Raster :=
  r.put call.x.toNat call.y.toNat (.ofColor call.state.primary)

namespace Plan

def new (grid : Grid) (depth : Nat) (opts : RenderOptions) : Except Error Plan := do
  let (width, height) ← rasterSize grid.rows grid.cols depth opts
  return ⟨grid, depth, opts.layout, width, height⟩

def checkState (p : Plan) (s : ColorState) : Except Error Unit :=
  if s.size = p.grid.numcolors then .ok () else .error (.stateColors s.size p.grid.numcolors)

def draw (p : Plan) (s : ColorState) : Raster :=
  p.grid.run p.layout p.depth Raster.putLeaf s (Raster.clear p.width p.height)

def render (p : Plan) (s : ColorState) : Except Error Raster := do
  p.checkState s
  return p.draw s

def leafAt (p : Plan) (x y : Nat) : Leaf :=
  let path := p.grid.pathTo p.layout p.depth (.ofNat x) (.ofNat y)
  ⟨path, p.grid.cellsAlong path⟩

def leaf? (p : Plan) (x y : Nat) : Option Leaf :=
  if x < p.width ∧ y < p.height then some (p.leafAt x y) else none

/-- Draws every leaf from the state whose visible color is that of the base at the same pixel. -/
def drawOver (p : Plan) (base : Raster) (s : ColorState) : Raster :=
  Raster.ofFn p.width p.height fun x y =>
    let under := (base.pixel? x y).getD .clear
    (p.leafAt x y).pixel (s.withPrimary under.toColor)

def composite (p : Plan) (base : Raster) (s : ColorState) : Except Error Raster := do
  p.checkState s
  if base.width = p.width ∧ base.height = p.height then return p.drawOver base s
  else throw (.baseSize base.width base.height p.width p.height)

/-- The first frame is rendered, and each later one is drawn over the frame before it. -/
def nextFrame (p : Plan) (s : ColorState) : Option Raster → Except Error Raster
  | none => p.render s
  | some previous => p.composite previous s

section Animation
variable {m : Type → Type} [Monad m]

def pushFrames (p : Plan) (s : ColorState) (sink : FrameSink m) :
    Nat → Nat → Option Raster → ExceptT Error m Unit
  | 0, _, _ => pure ()
  | count + 1, index, previous => do
    let frame ← ExceptT.mk (pure (p.nextFrame s previous))
    sink (.push index frame)
    pushFrames p s sink count (index + 1) (some frame)

def animate (p : Plan) (s : ColorState) (frames : Nat) (sink : FrameSink m) :
    ExceptT Error m Unit := do
  ExceptT.mk (pure (p.checkState s))
  sink (.begin ⟨p.width, p.height, frames⟩)
  p.pushFrames s sink frames 0 none
  sink .finish

end Animation

end Plan

end Quilt
