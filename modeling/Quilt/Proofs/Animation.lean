import Mathlib
import Quilt.Proofs.Composite

namespace Quilt.Plan
variable {p : Plan} {s : ColorState} {m : Type → Type} [Monad m] [LawfulMonad m]

/-- The frames of an animation, each drawn over the one before it. -/
def frame (p : Plan) (s : ColorState) : ℕ → Raster
  | 0 => p.draw s
  | index + 1 => p.drawOver (p.frame s index) s

/-- The calls of an animation when no call is refused. -/
def script (p : Plan) (s : ColorState) (frames : ℕ) : List SinkCall :=
  .begin ⟨p.width, p.height, frames⟩ ::
    ((List.range frames).map fun index => SinkCall.push index (p.frame s index)) ++ [.finish]

theorem sides_frame (hp : p.IsPlanned) (s : ColorState) (index : ℕ) :
    (p.frame s index).width = p.width ∧ (p.frame s index).height = p.height := by
  cases index with
  | zero =>
    rw [frame, draw_eq_ofFn hp]
    exact ⟨rfl, rfl⟩
  | succ index => exact ⟨rfl, rfl⟩

theorem nextFrame_none (hs : s.size = p.grid.numcolors) : p.nextFrame s none = .ok (p.frame s 0) :=
  render_of_size_eq hs

theorem nextFrame_some (hp : p.IsPlanned) (hs : s.size = p.grid.numcolors) (index : ℕ) :
    p.nextFrame s (some (p.frame s index)) = .ok (p.frame s (index + 1)) :=
  composite_of_sides_eq hs (sides_frame hp s index)

theorem pushFrames_eq_forM (hp : p.IsPlanned) (hs : s.size = p.grid.numcolors) (sink : FrameSink m)
    (count index : ℕ) {previous : Option Raster}
    (h : p.nextFrame s previous = .ok (p.frame s index)) :
    p.pushFrames s sink count index previous =
      forM ((List.range' index count).map fun k => SinkCall.push k (p.frame s k)) sink := by
  -- On the way it stays true that the next frame can be drawn and is the one of the index.
  induction count generalizing index previous with
  | zero => rfl
  | succ count ih =>
    rw [pushFrames, h, List.range'_succ, List.map_cons, List.forM_cons]
    change (pure (p.frame s index) >>= fun frame => _) = _
    rw [pure_bind, ih (index + 1) (nextFrame_some hp hs index)]

theorem animate_eq_forM (hp : p.IsPlanned) (hs : s.size = p.grid.numcolors) (frames : ℕ)
    (sink : FrameSink m) : p.animate s frames sink = forM (p.script s frames) sink := by
  have hpush := pushFrames_eq_forM hp hs sink frames 0 (nextFrame_none hs)
  rw [animate, checkState, if_pos hs, hpush, ← List.range_eq_range', script, List.cons_append,
    List.forM_cons, List.forM_append]
  change (pure () >>= fun _ => _) = _
  rw [pure_bind]
  simp

theorem animate_of_size_ne (hs : s.size ≠ p.grid.numcolors) (frames : ℕ) (sink : FrameSink m) :
    p.animate s frames sink = throw (.stateColors s.size p.grid.numcolors) := by
  rw [animate, checkState, if_neg hs]
  apply ExceptT.ext
  simp [ExceptT.run_bind]

end Quilt.Plan
