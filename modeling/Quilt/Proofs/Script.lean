import Mathlib
import Quilt.Proofs.DriftProtocol

namespace Quilt.Request
variable {m : Type → Type} [Monad m] {req : Request} {opts : RenderOptions}
  {compiled : CompiledRequest} {sink : FrameSink m} {frames : ℕ → Raster} {random : Random}

theorem animate_eq_forM [LawfulMonad m] (h : req.compile opts = .ok compiled)
    (sink : FrameSink m) : req.animate opts sink =
      forM (SinkCall.sequence compiled.plan.width compiled.plan.height
        (compiled.plan.frame compiled.initial) compiled.frames) sink := by
  rw [animate, check_bind h,
    Plan.animate_eq_forM (isPlanned_of_compile h) (size_initial_of_compile h)]
  rfl

/-- What holds a request on its way, as something that gives the request it leaves behind. -/
def leaving (held : ExceptT Error (StateT Request m) Unit) (req : Request) :
    ExceptT Error m Request :=
  ExceptT.mk do
    let (result, req) ← held.run.run req
    return result.map fun _ => req

variable {f : Unit → ExceptT Error (StateT Request m) Unit}

theorem leaving_bind_congr [LawfulMonad m] {x y : ExceptT Error (StateT Request m) Unit}
    {a b : Request} (h : x.run.run a = y.run.run b) :
    leaving (x >>= f) a = leaving (y >>= f) b := by
  apply ExceptT.ext
  simp only [leaving, ExceptT.run_mk, ExceptT.run_bind, StateT.run_bind, h]

variable [LawfulMonad m]

theorem leaving_call_bind (sink : FrameSink m) (call : SinkCall) (req : Request) :
    leaving (ExceptT.mk (StateT.lift (sink call).run) >>= f) req =
      sink call >>= fun _ => leaving (f ()) req := by
  apply ExceptT.ext
  simp only [leaving, ExceptT.run_bind, ExceptT.run_mk, StateT.run_bind, StateT.run_lift,
    bind_assoc, pure_bind]
  refine bind_congr fun result => ?_
  cases result with
  | error e =>
    simp only [StateT.run_pure, pure_bind]
    rfl
  | ok _ => rfl

theorem leaving_call (sink : FrameSink m) (call : SinkCall) (req : Request) :
    leaving (ExceptT.mk (StateT.lift (sink call).run)) req =
      sink call >>= fun _ => pure req := by
  rw [← bind_pure (ExceptT.mk (StateT.lift (sink call).run)), leaving_call_bind]
  refine bind_congr fun _ => ?_
  apply ExceptT.ext
  simp only [leaving, ExceptT.run_mk, ExceptT.run_pure, StateT.run_pure, pure_bind]
  rfl

theorem run_of_leaving {σ : Type} {held : ExceptT Error (StateT Request (StateM σ)) Unit}
    {after : Request} {st st' : σ} (h : (leaving held req).run.run st = (.ok after, st')) :
    (held.run.run req).run st = ((.ok (), after), st') := by
  rcases hheld : (held.run.run req).run st with ⟨⟨result, left⟩, reached⟩
  rw [leaving, ExceptT.run_mk, StateT.run_bind, hheld] at h
  cases result with
  | error e => cases h
  | ok _ =>
    cases h
    rfl

theorem leaving_driftFrames_succ {step : DriftStep} {frame : Raster}
    (hstep : (req.drift random).1.1 = .ok step)
    (hrender : (req.drift random).1.2.render opts = .ok frame) (sink : FrameSink m)
    (count index : ℕ) :
    leaving (driftFrames opts sink (count + 1) index random >>= f) req =
      sink (.push index frame) >>= fun _ =>
        leaving (driftFrames opts sink count (index + 1) (req.drift random).2 >>= f)
          (req.drift random).1.2 := by
  rcases hdrift : req.drift random with ⟨⟨outcome, after⟩, next⟩
  rw [hdrift] at hstep hrender
  have hturn : (driftFrames opts sink (count + 1) index random).run.run req =
      (ExceptT.mk (StateT.lift (sink (.push index frame)).run) >>= fun _ =>
        driftFrames opts sink count (index + 1) next).run.run after := by
    rw [driftFrames, run_get_bind, hdrift]
    dsimp only
    rw [run_set_bind, check_bind hstep, check_bind hrender]
  rw [leaving_bind_congr hturn, bind_assoc, leaving_call_bind]

theorem leaving_driftFrames (h : req.compile opts = .ok compiled)
    (hframes : ∀ k, (req.drifted random (k + 1)).1.render opts = .ok (frames k))
    (sink : FrameSink m) {count index total : ℕ} (htotal : index + count = total) :
    leaving (driftFrames opts sink count index (req.drifted random index).2 >>= fun _ =>
        ExceptT.mk (StateT.lift (sink .finish).run)) (req.drifted random index).1 =
      forM ((List.range' index count).map (fun k => SinkCall.push k (frames k)) ++ [.finish]) sink
        >>= fun _ => pure (req.drifted random total).1 := by
  -- The request that is held at an index has drifted as often, and one drift more gives the frame.
  induction count generalizing index with
  | zero =>
    subst htotal
    rw [driftFrames, pure_bind, leaving_call]
    simp
  | succ count ih =>
    obtain ⟨before, hbefore, -⟩ := exists_compile_drifted h random index
    obtain ⟨step, after, hdrift, -⟩ := exists_drift hbefore (req.drifted random index).2
    have hstep := congrArg Prod.fst hdrift
    have hrest : leaving (driftFrames opts sink count (index + 1)
        (req.drifted random (index + 1)).2 >>= fun _ =>
          ExceptT.mk (StateT.lift (sink .finish).run)) (req.drifted random (index + 1)).1 = _ :=
      ih (by omega)
    rw [leaving_driftFrames_succ hstep (hframes index), List.range'_succ, List.map_cons,
      List.cons_append, List.forM_cons, bind_assoc]
    exact bind_congr fun _ => hrest

/-- A drifting sequence makes the calls for the frames of the drifted requests, and where all of
them succeed it leaves the request of the last frame. -/
theorem leaving_renderDrift (h : req.compile opts = .ok compiled) {seed : UInt64}
    (hframes : ∀ k, (req.drifted (.ofSeed seed) (k + 1)).1.render opts = .ok (frames k))
    (sink : FrameSink m) (count : ℕ) : leaving (renderDrift opts count seed sink) req =
      forM (SinkCall.sequence compiled.plan.width compiled.plan.height frames count) sink
        >>= fun _ => pure (req.drifted (.ofSeed seed) count).1 := by
  obtain ⟨-, hgrid, hplan, -⟩ := compile_eq_ok.1 h
  have hsize : rasterSize req.functions.dims.1 req.functions.dims.2 req.iterations opts =
      .ok (compiled.plan.width, compiled.plan.height) := by
    rw [dims_of_compileGrid hgrid]
    exact (Plan.new_eq_ok.1 hplan).1
  have hstart : (renderDrift opts count seed sink).run.run req =
      (ExceptT.mk (StateT.lift
          (sink (.begin ⟨compiled.plan.width, compiled.plan.height, count⟩)).run) >>= fun _ =>
        driftFrames opts sink count 0 (.ofSeed seed) >>= fun _ =>
          ExceptT.mk (StateT.lift (sink .finish).run)).run.run req := by
    rw [renderDrift, run_get_bind]
    dsimp only
    rw [check_bind hsize, check_bind h]
  rw [leaving, hstart, ← leaving, leaving_call_bind, SinkCall.sequence, List.range_eq_range',
    List.cons_append, List.forM_cons, bind_assoc]
  exact bind_congr fun _ => leaving_driftFrames h hframes sink (Nat.zero_add count)

end Quilt.Request
