import Quilt.Render.Raster

namespace Quilt

structure FrameConfig where
  width : Nat
  height : Nat
  frames : Nat
deriving DecidableEq, Repr

inductive SinkCall where
  | begin (config : FrameConfig)
  | push (index : Nat) (raster : Raster)
  | finish
deriving DecidableEq, Repr

/-- Where the frames of a sequence go. A sink is told the dimensions and the number of frames, then
the frames in order, then that the sequence is over, and may refuse any of it. -/
abbrev FrameSink (m : Type → Type) := SinkCall → ExceptT Error m Unit

/-- Keeps the calls in order and refuses those that `refuse` has an error for. A refused call is
kept too. -/
def FrameSink.logging (refuse : SinkCall → Option Error) : FrameSink (StateM (List SinkCall)) :=
  fun call => do
    modify (· ++ [call])
    match refuse call with
    | some e => throw e
    | none => return ()

structure FrameStore where
  config : Option FrameConfig
  frames : List (Nat × Raster)
  finished : Bool
deriving DecidableEq, Repr

namespace FrameStore

def empty : FrameStore := ⟨none, [], false⟩

/-- A new sequence drops all that was there. Frames are taken in any order. -/
def accept (store : FrameStore) : SinkCall → FrameStore
  | .begin config => ⟨some config, [], false⟩
  | .push index raster => { store with frames := store.frames ++ [(index, raster)] }
  | .finish => { store with finished := true }

def sink : FrameSink (StateM FrameStore) := fun call => modify (·.accept call)

end FrameStore

end Quilt
