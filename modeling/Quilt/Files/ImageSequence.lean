import Quilt.Files.Basic
import Quilt.Files.Log
import Quilt.Text.Digits

namespace Quilt

structure ImageSequence where
  config : Option FrameConfig
  written : Nat
  log : List LogEntry
deriving DecidableEq, Repr

namespace ImageSequence

def empty : ImageSequence := ⟨none, 0, []⟩

/-- The number of a frame has at least four digits. -/
def frameName (index : Nat) : String :=
  "frame_" ++ String.ofList (Text.paddedDigits 10 4 index) ++ ".png"

/-- Whether a sequence may end: all the frames that were announced have been written. -/
def close (s : ImageSequence) : Except Error Unit :=
  match s.config with
  | some config =>
    if config.frames = s.written then .ok () else .error (.frameCount config.frames s.written)
  | none => .ok ()

variable {m : Type → Type} [Monad m]

def sink (files : Files m) (dir : Path) : FrameSink (StateT ImageSequence m)
  | .begin config => do
    let made := (files.makeDirs dir).adapt (FileFault.toError "create output dir" dir)
    ExceptT.mk (StateT.lift made.run)
    modify fun s => ⟨some config, 0, s.log ++ [.sequenceStarted config dir]⟩
  | .push index raster => do
    let path := dir.join (frameName index)
    let wrote := (files.writeImage path raster).adapt (FileFault.toError "write png" path)
    ExceptT.mk (StateT.lift wrote.run)
    modify fun s => ⟨s.config, s.written + 1, s.log ++ [.frameWritten index path]⟩
  | .finish => do ExceptT.mk (pure (← get).close)

end ImageSequence

end Quilt
