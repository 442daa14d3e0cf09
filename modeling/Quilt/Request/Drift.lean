import Quilt.Request.Compile
import Quilt.Request.Random

namespace Quilt

inductive DriftStep where
  | formula (row col color channel : Nat) (suffix : String)
  | selection (row col slot source : Nat)
deriving DecidableEq, Repr

namespace Functions

def formula? (rows : List (List (List (List String)))) (row col color channel : Nat) :
    Option String := do
  let cells ← rows[row]?
  let cell ← cells[col]?
  let channels ← cell[color]?
  channels[channel]?

def slot? (rows : List (List (List Nat))) (row col slot : Nat) : Option Nat := do
  let cells ← rows[row]?
  let cell ← cells[col]?
  cell[slot]?

/-- The functions after a step. A step that names no entry changes nothing. -/
def applyStep : Functions → DriftStep → Functions
  | expressions rows, .formula row col color channel suffix =>
    expressions <| rows.modify row fun cells => cells.modify col fun cell =>
      cell.modify color fun channels => channels.modify channel fun source => source ++ suffix
  | permutations rows, .selection row col slot source =>
    permutations <| rows.modify row fun cells => cells.modify col fun cell => cell.set slot source
  | functions, _ => functions

end Functions

/-- Multiplies by `n` and divides by `n - 1`, or the other way round. -/
def driftSuffix (n : Nat) (up : Bool) : String :=
  if up then s!"*{n}/{n - 1}" else s!"/{n}*{n - 1}"

namespace Request

/-- Draws a step. The numbers are drawn also for an entry that is missing. -/
def drawStep (req : Request) : StateM Random (Except Error DriftStep) := do
  let numcolors := req.colors.length
  let (rows, cols) := req.functions.dims
  if rows = 0 ∨ cols = 0 ∨ numcolors = 0 then return .error .driftNothing
  let row ← Random.below rows
  let col ← Random.below cols
  match req.functions with
  | .expressions lines =>
    let color ← Random.below numcolors
    let channel ← Random.below 3
    let n ← Random.below 5
    let up ← Random.coin
    match Functions.formula? lines row col color channel with
    | some _ => return .ok (.formula row col color channel (driftSuffix (n + 2) up))
    | none => return .error (.driftNoFormula row col color channel)
  | .permutations lines =>
    let slot ← Random.below numcolors
    let source ← Random.below numcolors
    match Functions.slot? lines row col slot with
    | some _ => return .ok (.selection row col slot source)
    | none => return .error (.driftNoSlot row col slot)

def applyStep (req : Request) (step : DriftStep) : Request :=
  { req with functions := req.functions.applyStep step }

/-- One drift: the step taken, or why there was none, and the request afterwards. -/
def drift (req : Request) : StateM Random (Except Error DriftStep × Request) := do
  match ← req.drawStep with
  | .ok step => return (.ok step, req.applyStep step)
  | .error e => return (.error e, req)

section Sequence
variable {m : Type → Type} [Monad m]

/-- Drifts before every frame. The request that is reached stays when a step or the sink fails. -/
def driftFrames (opts : RenderOptions) (sink : FrameSink m) :
    Nat → Nat → Random → ExceptT Error (StateT Request m) Unit
  | 0, _, _ => pure ()
  | count + 1, index, random => do
    let ((outcome, req), random) := (← get).drift random
    set req
    let _ ← ExceptT.mk (pure outcome)
    let frame ← ExceptT.mk (pure (req.render opts))
    ExceptT.mk (StateT.lift (sink (.push index frame)).run)
    driftFrames opts sink count (index + 1) random

/-- Renders a drifting sequence. The size is checked first and the whole request next, before the
sink is told anything. -/
def renderDrift (opts : RenderOptions) (frames : Nat) (seed : UInt64) (sink : FrameSink m) :
    ExceptT Error (StateT Request m) Unit := do
  let req ← get
  let (rows, cols) := req.functions.dims
  let (width, height) ← ExceptT.mk (pure (rasterSize rows cols req.iterations opts))
  let _ ← ExceptT.mk (pure (req.compile opts))
  ExceptT.mk (StateT.lift (sink (.begin ⟨width, height, frames⟩)).run)
  driftFrames opts sink frames 0 (Random.ofSeed seed)
  ExceptT.mk (StateT.lift (sink .finish).run)

end Sequence

end Request

end Quilt
