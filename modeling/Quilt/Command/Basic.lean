import Quilt.Files.Path
import Quilt.Render.Size

namespace Quilt

structure QuiltOptions where
  input : String
  maxPixels : Nat
  layout : Layout
deriving DecidableEq, Repr

def QuiltOptions.render (opts : QuiltOptions) : RenderOptions :=
  { maxPixels := opts.maxPixels, layout := opts.layout }

inductive Command where
  | render (opts : QuiltOptions) (out : String) (saveRequest : Bool)
  | composite (opts : QuiltOptions) (base out : String)
  /-- A sequence where each frame is drawn over the one before it. -/
  | animate (opts : QuiltOptions) (outDir : String) (frames : Option Nat)
  /-- A sequence of a request that drifts, and in the end the request on demand. -/
  | drift (opts : QuiltOptions) (outDir : String) (frames : Nat) (seed : UInt64)
      (saveRequest : Bool)
deriving DecidableEq, Repr

structure Invocation where
  command : Command
  verbose : Bool
deriving DecidableEq, Repr

end Quilt
