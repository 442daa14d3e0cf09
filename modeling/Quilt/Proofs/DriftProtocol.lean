import Mathlib
import Quilt.Proofs.Drift
import Quilt.Proofs.Protocol

namespace Quilt.Request
variable {req : Request} {opts : RenderOptions} {compiled : CompiledRequest}

theorem exists_render_drifted (h : req.compile opts = .ok compiled) (random : Random) (count : ℕ) :
    ∃ frame, (req.drifted random count).1.render opts = .ok frame ∧
      frame.width = compiled.plan.width ∧ frame.height = compiled.plan.height := by
  obtain ⟨before, hbefore, hshape⟩ := exists_compile_drifted h random count
  rw [← hshape.width_eq, ← hshape.height_eq]
  exact exists_render_of_compile hbefore

/-- What a sequence refuses a request with that fails to compile with an error. The size that the
request declares is looked at first. -/
def driftRefusal (req : Request) (opts : RenderOptions) (e : Error) : Error :=
  match rasterSize req.functions.dims.1 req.functions.dims.2 req.iterations opts with
  | .error refused => refused
  | .ok _ => e

theorem run_renderDrift_of_compile_error {m : Type → Type} [Monad m] [LawfulMonad m] {e : Error}
    (h : req.compile opts = .error e) (sink : FrameSink m) (count : ℕ) (seed : UInt64) :
    (renderDrift opts count seed sink).run.run req =
      pure (.error (req.driftRefusal opts e), req) := by
  cases hsize : rasterSize req.functions.dims.1 req.functions.dims.2 req.iterations opts <;>
    simp [renderDrift, ExceptT.run_bind, StateT.run_bind, run_get, driftRefusal, hsize, h]

theorem exists_run_renderDrift_error {σ : Type} {e : Error} (h : req.compile opts = .error e)
    (sink : FrameSink (StateM σ)) (count : ℕ) (seed : UInt64) (st : σ) :
    ∃ e', ((renderDrift opts count seed sink).run.run req).run st = ((.error e', req), st) := by
  rw [run_renderDrift_of_compile_error h]
  exact ⟨_, rfl⟩

/-- The request that a sequence of frames holds at a call. -/
def heldAt (req : Request) (random : Random) (count : ℕ) : SinkCall → Request
  | .begin _ => req
  | .push index _ => (req.drifted random (index + 1)).1
  | .finish => (req.drifted random count).1

section Runs
variable {σ α : Type} {sink : FrameSink (StateM σ)} {call : SinkCall} {made : List SinkCall}
  {e : Error} {st mid st' : σ} {outcome : Except Error Unit} {frames : ℕ → Raster} {random : Random}
  {f : Unit → ExceptT Error (StateT Request (StateM σ)) Unit}

/-- A call of the sink that leaves the request as it is. -/
def tell (sink : FrameSink (StateM σ)) (call : SinkCall) :
    ExceptT Error (StateT Request (StateM σ)) Unit :=
  ExceptT.mk (StateT.lift (sink call).run)

theorem run_tell_bind_of_accepted (hcall : sink call st = (.ok (), mid)) (req : Request) :
    ((tell sink call >>= f).run.run req).run st = ((f ()).run.run req).run mid := by
  change (sink call).run.run st = _ at hcall
  simp only [tell, ExceptT.run_bind, StateT.run_bind, ExceptT.run_mk, StateT.run_lift, hcall]
  rfl

theorem run_tell_bind_of_refused (hcall : sink call st = (.error e, st')) (req : Request) :
    ((tell sink call >>= f).run.run req).run st = ((.error e, req), st') := by
  change (sink call).run.run st = _ at hcall
  simp only [tell, ExceptT.run_bind, StateT.run_bind, ExceptT.run_mk, StateT.run_lift, hcall]
  rfl

theorem run_tell_bind_of_ends {calls : List SinkCall} {held : SinkCall → Request}
    (hends : sink.Ends (call :: calls) st outcome made st') (hcall : held call = req)
    (hrest : ∀ mid made, sink.Ends calls mid outcome made st' → ∃ last,
      made.getLast? = some last ∧ ((f ()).run.run req).run mid = ((outcome, held last), st')) :
    ∃ last, made.getLast? = some last ∧
      ((tell sink call >>= f).run.run req).run st = ((outcome, held last), st') := by
  subst hcall
  cases hends with
  | accepted haccepted hends =>
    obtain ⟨last, hlast, hrun⟩ := hrest _ _ hends
    refine ⟨last, by rw [List.getLast?_cons, hlast, Option.getD_some], ?_⟩
    rw [run_tell_bind_of_accepted haccepted, hrun]
  | refused hrefused => exact ⟨_, rfl, run_tell_bind_of_refused hrefused _⟩

theorem run_bind_congr {x y : ExceptT Error (StateT Request (StateM σ)) Unit} {a b : Request}
    (h : x.run.run a = y.run.run b) : (x >>= f).run.run a = (y >>= f).run.run b := by
  simp only [ExceptT.run_bind, StateT.run_bind, h]

theorem run_driftFrames_succ {step : DriftStep} {frame : Raster}
    (hstep : (req.drift random).1.1 = .ok step)
    (hrender : (req.drift random).1.2.render opts = .ok frame) (sink : FrameSink (StateM σ))
    (count index : ℕ) :
    (driftFrames opts sink (count + 1) index random).run.run req =
      (tell sink (.push index frame) >>= fun _ =>
        driftFrames opts sink count (index + 1) (req.drift random).2).run.run
          (req.drift random).1.2 := by
  -- Reading and setting the request computes away, and the two checks are left.
  have hturn : (driftFrames opts sink (count + 1) index random).run.run req =
      (do
        let _ ← ExceptT.mk (pure (req.drift random).1.1)
        let frame ← ExceptT.mk (pure ((req.drift random).1.2.render opts))
        tell sink (.push index frame)
        driftFrames opts sink count (index + 1) (req.drift random).2).run.run
          (req.drift random).1.2 := rfl
  rw [hturn, check_bind hstep, check_bind hrender]

theorem run_driftFrames (h : req.compile opts = .ok compiled)
    (hframes : ∀ k, (req.drifted random (k + 1)).1.render opts = .ok (frames k))
    {count index total : ℕ} (htotal : index + count = total)
    (hends : sink.Ends ((List.range' index count).map (fun k => SinkCall.push k (frames k)) ++
      [.finish]) st outcome made st') :
    ∃ last, made.getLast? = some last ∧
      ((driftFrames opts sink count index (req.drifted random index).2 >>= fun _ =>
        tell sink .finish).run.run (req.drifted random index).1).run st =
          ((outcome, req.heldAt random total last), st') := by
  -- The loop stands at the request that has drifted once for each frame before.
  induction count generalizing index st made with
  | zero =>
    subst htotal
    rw [driftFrames, pure_bind, ← bind_pure (tell sink .finish)]
    cases hends with
    | accepted hcall hrest =>
      cases hrest
      exact ⟨_, rfl, run_tell_bind_of_accepted hcall _⟩
    | refused hcall => exact ⟨_, rfl, run_tell_bind_of_refused hcall _⟩
  | succ count ih =>
    obtain ⟨before, hbefore, -⟩ := exists_compile_drifted h random index
    obtain ⟨step, after, hdrift, -⟩ := exists_drift hbefore (req.drifted random index).2
    have hstep := congrArg Prod.fst hdrift
    rw [run_bind_congr (run_driftFrames_succ hstep (hframes index) sink count index), bind_assoc]
    rw [List.range'_succ, List.map_cons, List.cons_append] at hends
    exact run_tell_bind_of_ends hends rfl fun _ _ => ih (by omega)

theorem run_renderDrift_start (sink : FrameSink (StateM σ)) (opts : RenderOptions) (count : ℕ)
    (seed : UInt64) (req : Request) : (renderDrift opts count seed sink).run.run req =
      (do
        let size ← ExceptT.mk (pure
          (rasterSize req.functions.dims.1 req.functions.dims.2 req.iterations opts))
        let _ ← ExceptT.mk (pure (req.compile opts))
        tell sink (.begin ⟨size.1, size.2, count⟩)
        driftFrames opts sink count 0 (.ofSeed seed)
        tell sink .finish).run.run req := rfl

theorem run_renderDrift_eq (h : req.compile opts = .ok compiled) (sink : FrameSink (StateM σ))
    (count : ℕ) (seed : UInt64) :
    (renderDrift opts count seed sink).run.run req =
      (tell sink (.begin ⟨compiled.plan.width, compiled.plan.height, count⟩) >>= fun _ =>
        driftFrames opts sink count 0 (.ofSeed seed) >>= fun _ =>
          tell sink .finish).run.run req := by
  obtain ⟨-, hgrid, hplan, -⟩ := compile_eq_ok.1 h
  have hsize : rasterSize req.functions.dims.1 req.functions.dims.2 req.iterations opts =
      .ok (compiled.plan.width, compiled.plan.height) := by
    rw [dims_of_compileGrid hgrid]
    exact (Plan.new_eq_ok.1 hplan).1
  rw [run_renderDrift_start, check_bind hsize, check_bind h]

theorem run_renderDrift (h : req.compile opts = .ok compiled) {seed : UInt64} {count : ℕ}
    (hframes : ∀ k, (req.drifted (.ofSeed seed) (k + 1)).1.render opts = .ok (frames k))
    (hends : sink.Ends (SinkCall.sequence compiled.plan.width compiled.plan.height frames count) st
      outcome made st') :
    ∃ last, made.getLast? = some last ∧
      ((renderDrift opts count seed sink).run.run req).run st =
        ((outcome, req.heldAt (.ofSeed seed) count last), st') := by
  rw [run_renderDrift_eq h]
  rw [SinkCall.sequence, List.range_eq_range', List.cons_append] at hends
  exact run_tell_bind_of_ends hends rfl fun _ _ => run_driftFrames h hframes (Nat.zero_add count)

end Runs

/-- A drifting sequence ends as the calls for the frames of the drifted requests do, all of the size
announced, with no error of its own, and with no other call. The request left behind is the one at
the last call made. -/
theorem renderDrift_protocol (h : req.compile opts = .ok compiled) (seed : UInt64) :
    ∃ frames : ℕ → Raster,
      (∀ k, (req.drifted (.ofSeed seed) (k + 1)).1.render opts = .ok (frames k)) ∧
        (∀ k, (frames k).width = compiled.plan.width ∧ (frames k).height = compiled.plan.height) ∧
        ∀ (count : ℕ) (σ : Type) (sink : FrameSink (StateM σ)) (st : σ), ∃ outcome made last st',
          sink.Ends (SinkCall.sequence compiled.plan.width compiled.plan.height frames count) st
              outcome made st' ∧
            made.getLast? = some last ∧
            ((renderDrift opts count seed sink).run.run req).run st =
              ((outcome, req.heldAt (.ofSeed seed) count last), st') ∧
            ((renderDrift opts count seed sink.recorded).run.run req).run ([], st) =
              ((outcome, req.heldAt (.ofSeed seed) count last), made, st') := by
  choose frames hrender hwidth hheight using fun k =>
    exists_render_drifted h (.ofSeed seed) (k + 1)
  refine ⟨frames, hrender, fun k => ⟨hwidth k, hheight k⟩, fun count σ sink st => ?_⟩
  obtain ⟨outcome, made, st', hends⟩ := sink.exists_ends
    (SinkCall.sequence compiled.plan.width compiled.plan.height frames count) st
  obtain ⟨last, hlast, hrun⟩ := run_renderDrift h hrender hends
  obtain ⟨last', hlast', hrecord⟩ := run_renderDrift h hrender (hends.recorded [])
  obtain rfl : last = last' := Option.some.inj (hlast.symm.trans hlast')
  exact ⟨outcome, made, last, st', hends, hlast, hrun, hrecord⟩

theorem renderDrift_protocol_two_formula_cells :
    twoFormulaCells.compile {} = .ok twoFormulaCellsCompiled ∧ ∃ frames : ℕ → Raster,
      (∀ k, (twoFormulaCells.drifted (.ofSeed 7) (k + 1)).1.render {} = .ok (frames k)) ∧
        ∃ outcome made last store,
          FrameStore.sink.Ends (SinkCall.sequence 4 1 frames 3) .empty outcome made store ∧
            made.getLast? = some last ∧
            ((renderDrift {} 3 7 FrameStore.sink.recorded).run.run twoFormulaCells).run ([], .empty) =
              ((outcome, twoFormulaCells.heldAt (.ofSeed 7) 3 last), made, store) := by
  obtain ⟨frames, hrender, -, hruns⟩ := renderDrift_protocol compile_twoFormulaCells 7
  obtain ⟨outcome, made, last, store, hends, hlast, -, hrun⟩ :=
    hruns 3 FrameStore FrameStore.sink .empty
  exact ⟨compile_twoFormulaCells, frames, hrender, outcome, made, last, store, hends, hlast, hrun⟩

end Quilt.Request
