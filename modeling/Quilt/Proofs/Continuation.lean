import Mathlib
import Quilt.Proofs.DriftProtocol

namespace Quilt

/-- A sink that refuses no call. -/
def FrameSink.Accepting {σ : Type} (sink : FrameSink (StateM σ)) : Prop :=
  ∀ call st, ∃ st', sink call st = (.ok (), st')

theorem FrameSink.Accepting.exists_ends {σ : Type} {sink : FrameSink (StateM σ)}
    (h : sink.Accepting) (calls : List SinkCall) (st : σ) :
    ∃ st', sink.Ends calls st (.ok ()) calls st' := by
  induction calls generalizing st with
  | nil => exact ⟨st, .finished⟩
  | cons call calls ih =>
    obtain ⟨mid, hcall⟩ := h call st
    obtain ⟨st', hrest⟩ := ih mid
    exact ⟨st', .accepted hcall hrest⟩

theorem FrameStore.accepting_sink : sink.Accepting := fun _ _ => ⟨_, rfl⟩

theorem SinkCall.getLast?_sequence (width height : ℕ) (frames : ℕ → Raster) (count : ℕ) :
    (sequence width height frames count).getLast? = some .finish :=
  List.getLast?_concat

theorem Random.after_ofSeed (seed : UInt64) (count : ℕ) :
    (ofSeed seed).after count = ofSeed (.ofNat (seed.toNat + count * 0x9E3779B97F4A7C15)) := by
  have hstate := state_after (ofSeed seed) count
  have hstep : UInt64.ofNat 0x9E3779B97F4A7C15 = step := rfl
  rw [UInt64.ofNat_add, UInt64.ofNat_mul, UInt64.ofNat_toNat, hstep]
  exact congrArg Random.mk hstate

namespace Request
variable {req : Request} {opts : RenderOptions} {compiled : CompiledRequest}

theorem drifted_add (req : Request) (random : Random) (m n : ℕ) :
    req.drifted random (m + n) = (req.drifted random m).1.drifted (req.drifted random m).2 n := by
  induction n with
  | zero => rfl
  | succ n ih => rw [← Nat.add_assoc, drifted, drifted, ih]

/-- A drift keeps the form of the functions, whether it takes a step or not. -/
theorem drawCount_drift (req : Request) (random : Random) :
    (req.drift random).1.2.functions.drawCount = req.functions.drawCount := by
  obtain ⟨drifted, hdrift, hdrifts⟩ := takes_drift req random
  rw [hdrift]
  cases hdrifts with
  | kept => rfl
  | changed => exact Functions.drawCount_applyStep _ _

theorem drawCount_drifted (req : Request) (random : Random) (count : ℕ) :
    (req.drifted random count).1.functions.drawCount = req.functions.drawCount := by
  induction count with
  | zero => rfl
  | succ count ih => rw [← ih, drifted, drawCount_drift]

theorem drawCount_of_compile (h : req.compile opts = .ok compiled) :
    req.drawCount = req.functions.drawCount := by
  obtain ⟨-, hgrid, -⟩ := compile_eq_ok.1 h
  have hfilled := (isCompiled_of_compileGrid hgrid).isFilled
  have hrows := hfilled.rows_pos
  have hcols := hfilled.cols_pos
  have hcolors := (color_count_of_compileGrid hgrid).2
  refine if_neg fun hnothing => ?_
  rw [NothingToDrift, dims_of_compileGrid hgrid] at hnothing
  omega

theorem random_drifted (h : req.compile opts = .ok compiled) (random : Random) (count : ℕ) :
    (req.drifted random count).2 = random.after (req.functions.drawCount * count) := by
  induction count with
  | zero => rfl
  | succ count ih =>
    obtain ⟨before, hbefore, -⟩ := exists_compile_drifted h random count
    obtain ⟨_, hdrift, -⟩ := takes_drift (req.drifted random count).1 (req.drifted random count).2
    rw [drifted, hdrift, drawCount_of_compile hbefore, drawCount_drifted, ih, Random.after_after,
      Nat.mul_succ]

/-- A sequence that makes the calls and leaves a request behind, if the sink refuses no call. -/
def Leaves (opts : RenderOptions) (count : ℕ) (seed : UInt64) (req : Request)
    (calls : List SinkCall) (after : Request) : Prop :=
  ∀ (σ : Type) (sink : FrameSink (StateM σ)) (st : σ), sink.Accepting → ∃ st',
    ((renderDrift opts count seed sink).run.run req).run st = ((.ok (), after), st') ∧
      ((renderDrift opts count seed sink.recorded).run.run req).run ([], st) =
        ((.ok (), after), calls, st')

theorem leaves_drifted (h : req.compile opts = .ok compiled) {seed : UInt64} {frames : ℕ → Raster}
    (hframes : ∀ k, (req.drifted (.ofSeed seed) (k + 1)).1.render opts = .ok (frames k))
    (count : ℕ) :
    Leaves opts count seed req
      (SinkCall.sequence compiled.plan.width compiled.plan.height frames count)
      (req.drifted (.ofSeed seed) count).1 := by
  intro σ sink st hsink
  obtain ⟨st', hends⟩ := hsink.exists_ends
    (SinkCall.sequence compiled.plan.width compiled.plan.height frames count) st
  obtain ⟨last, hlast, hrun⟩ := run_renderDrift h hframes hends
  obtain ⟨last', hlast', hrecord⟩ := run_renderDrift h hframes (hends.recorded [])
  rw [SinkCall.getLast?_sequence] at hlast hlast'
  cases hlast
  cases hlast'
  exact ⟨st', hrun, hrecord⟩

/-- A drifting sequence can be made in two parts: the second one starts from the request that the
first one leaves, and from the seed moved on by all the draws of the first. The frames of both
together are those of the whole, and the request left behind is the same. -/
theorem renderDrift_continues (h : req.compile opts = .ok compiled) (seed : UInt64) (a b : ℕ) :
    ∃ (width height : ℕ) (frames : ℕ → Raster) (mid after : Request),
      Leaves opts (a + b) seed req (SinkCall.sequence width height frames (a + b)) after ∧
        Leaves opts a seed req (SinkCall.sequence width height frames a) mid ∧
        Leaves opts b
          (.ofNat (seed.toNat + req.functions.drawCount * a * 0x9E3779B97F4A7C15)) mid
          (SinkCall.sequence width height (fun k => frames (a + k)) b) after := by
  choose frames hframes _ _ using fun k => exists_render_drifted h (.ofSeed seed) (k + 1)
  obtain ⟨before, hbefore, hshape⟩ := exists_compile_drifted h (.ofSeed seed) a
  -- The generator after the first part can be told from the seed.
  have hsplit : ∀ k, (req.drifted (.ofSeed seed) (a + k)).1 =
      ((req.drifted (.ofSeed seed) a).1.drifted (.ofSeed (.ofNat
        (seed.toNat + req.functions.drawCount * a * 0x9E3779B97F4A7C15))) k).1 := by
    intro k
    rw [drifted_add, random_drifted h, Random.after_ofSeed]
  refine ⟨_, _, frames, _, _, leaves_drifted h hframes (a + b), leaves_drifted h hframes a, ?_⟩
  rw [hsplit, ← hshape.width_eq, ← hshape.height_eq]
  refine leaves_drifted hbefore (fun k => ?_) b
  rw [← hsplit]
  exact hframes (a + k)

theorem renderDrift_continues_two_formula_cells :
    twoFormulaCells.compile {} = .ok twoFormulaCellsCompiled ∧
      ∃ (width height : ℕ) (frames : ℕ → Raster) (mid after : Request) (store store' : FrameStore),
        ((renderDrift {} 2 7 FrameStore.sink).run.run twoFormulaCells).run .empty =
            ((.ok (), mid), store) ∧
          ((renderDrift {} 5 7 FrameStore.sink.recorded).run.run twoFormulaCells).run ([], .empty) =
            ((.ok (), after), SinkCall.sequence width height frames 5, store') ∧
          Leaves {} 3 (.ofNat (7 + 6 * 2 * 0x9E3779B97F4A7C15)) mid
            (SinkCall.sequence width height (fun k => frames (2 + k)) 3) after := by
  obtain ⟨width, height, frames, mid, after, hwhole, hfirst, hsecond⟩ :=
    renderDrift_continues compile_twoFormulaCells 7 2 3
  obtain ⟨store, hmid, -⟩ := hfirst FrameStore FrameStore.sink .empty FrameStore.accepting_sink
  obtain ⟨store', -, hafter⟩ := hwhole FrameStore FrameStore.sink .empty FrameStore.accepting_sink
  exact ⟨compile_twoFormulaCells, width, height, frames, mid, after, store, store', hmid, hafter,
    hsecond⟩

end Request

end Quilt
