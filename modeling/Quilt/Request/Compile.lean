import Quilt.Grid.Compile
import Quilt.Render.Plan
import Quilt.Request.Basic

namespace Quilt

structure CompiledRequest where
  plan : Plan
  initial : ColorState
  frames : Nat
deriving DecidableEq, Repr

namespace Request

def compileGrid (req : Request) : Except Error Grid :=
  Grid.compile req.colors.length req.functions

/-- Colors are checked before the grid, and the grid before the size. -/
def compile (req : Request) (opts : RenderOptions) : Except Error CompiledRequest := do
  let initial ← req.initialState
  let grid ← req.compileGrid
  let plan ← Plan.new grid req.iterations opts
  return ⟨plan, initial, req.frames⟩

def render (req : Request) (opts : RenderOptions) : Except Error Raster := do
  let compiled ← req.compile opts
  compiled.plan.render compiled.initial

def composite (req : Request) (opts : RenderOptions) (base : Raster) : Except Error Raster := do
  let compiled ← req.compile opts
  compiled.plan.composite base compiled.initial

def animate {m : Type → Type} [Monad m] (req : Request) (opts : RenderOptions)
    (sink : FrameSink m) : ExceptT Error m Unit := do
  let compiled ← ExceptT.mk (pure (req.compile opts))
  compiled.plan.animate compiled.initial compiled.frames sink

end Request

end Quilt
