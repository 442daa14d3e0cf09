import Quilt.Image.Samples

namespace Quilt

/-- What a place of the result is mixed from: weights for some places in a row. -/
structure Window where
  start : Nat
  weights : List Float32
deriving Repr

namespace Window

def triangle (x : Float32) : Float32 := if x.abs < 1 then 1 - x.abs else 0

/-- The window of one of `newCount` places that `count` places become. It is at least a place wide to
either side of the center, and as wide as a place of the result. -/
def around (count newCount place : Nat) : Window :=
  let ratio := count.toFloat32 / newCount.toFloat32
  let reach := if ratio < 1 then 1 else ratio
  let center := (place.toFloat32 + 0.5) * ratio
  let start := min (center - reach).floor.toUInt64.toNat (count - 1)
  let stop := max (start + 1) (min (center + reach).ceil.toUInt64.toNat count)
  let weights := (List.range' start (stop - start)).map fun i =>
    triangle ((i.toFloat32 - (center - 0.5)) / reach)
  let sum := weights.foldl (· + ·) 0
  ⟨start, weights.map (· / sum)⟩

def mix (w : Window) (sample : Nat → Float32) : Float32 :=
  (w.weights.foldl (fun (total, i) weight => (total + sample i * weight, i + 1)) (0, w.start)).1

end Window

def Raster.resample (r : Raster) (width height : Nat) : Raster :=
  if r.width = 0 ∨ r.height = 0 then .clear width height
  else if r.width = width ∧ r.height = height then r
  else
    let columns := (Array.range width).map (Window.around r.width width)
    let rows := (Array.range height).map (Window.around r.height height)
    .ofFn width height fun x y => .ofEach fun sample =>
      let mixed (i : Nat) : Float32 := (rows[y]?.elim 0 fun row =>
        row.mix fun j => ((r.pixel? i j).elim 0 sample).toFloat32)
      let level := columns[x]?.elim 0 fun column => column.mix mixed
      (if level < 0 then 0 else if 255 < level then 255 else level).round.toUInt8

end Quilt
