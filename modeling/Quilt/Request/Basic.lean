import Quilt.Grid.Basic

namespace Quilt

inductive ColorSpec where
  | triple (channels : List Float)
  | named (red green blue : Float)
deriving BEq, DecidableEq, Repr

namespace ColorSpec

def formName : ColorSpec → String
  | triple _ => "triple"
  | named .. => "named"

def channels : ColorSpec → List Float
  | triple channels => channels
  | named red green blue => [red, green, blue]

def toColor (index : Nat) (spec : ColorSpec) : Except Error Color :=
  match spec.channels with
  | [red, green, blue] =>
    if Binary64.isFinite red && Binary64.isFinite green && Binary64.isFinite blue then
      .ok ⟨red, green, blue⟩
    else .error (.colorNotFinite index)
  | channels => .error (.colorChannels index channels.length)

end ColorSpec

structure Request where
  iterations : Nat
  colors : List ColorSpec
  functions : Functions
  numframes : Option Nat
deriving BEq, DecidableEq, Repr

namespace Request

def defaultFrames : Nat := 10

def frames (req : Request) : Nat := req.numframes.getD defaultFrames

/-- The colors are counted before any of them is looked at. -/
def initialState (req : Request) : Except Error ColorState :=
  if req.colors.isEmpty then .error .requestNoColors
  else if maxColors < req.colors.length then .error (.tooManyColors req.colors.length)
  else do
    let colors ← req.colors.zipIdx.mapM fun (spec, index) => spec.toColor index
    ColorState.ofColors colors

end Request

end Quilt
