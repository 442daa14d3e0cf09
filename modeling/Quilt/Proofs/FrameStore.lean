import Mathlib
import Quilt.Proofs.Refusal
import Quilt.Proofs.Script

namespace Quilt

/-- Frames with their indices, up to a number of frames. -/
def numbered (frames : ℕ → Raster) (count : ℕ) : List (ℕ × Raster) :=
  (List.range count).map fun k => (k, frames k)

theorem numbered_succ (frames : ℕ → Raster) (count : ℕ) :
    numbered frames (count + 1) = numbered frames count ++ [(count, frames count)] := by
  simp [numbered, List.range_succ]

theorem map_fst_numbered (frames : ℕ → Raster) (count : ℕ) :
    (numbered frames count).map Prod.fst = List.range count := by
  simp [numbered, Function.comp_def]

namespace FrameStore

/-- The store after some calls, in any order. -/
def after (history : List SinkCall) : FrameStore := history.foldl accept empty

/-- What is held of a sequence that is over. -/
def ofSequence (width height : ℕ) (frames : ℕ → Raster) (count : ℕ) : FrameStore :=
  ⟨some ⟨width, height, count⟩, numbered frames count, true⟩

theorem run_history (history : List SinkCall) :
    (forM history sink).run.run empty = (.ok (), after history) :=
  (FrameSink.ends_store history empty).forM_eq

theorem foldl_pushes (frames : ℕ → Raster) (indices : List ℕ) (store : FrameStore) :
    (indices.map fun k => SinkCall.push k (frames k)).foldl accept store =
      { store with frames := store.frames ++ indices.map fun k => (k, frames k) } := by
  induction indices generalizing store with
  | nil => simp
  | cons k indices ih =>
    rw [List.map_cons, List.foldl_cons, ih]
    simp [accept]

theorem run_sequence (width height : ℕ) (frames : ℕ → Raster) (count : ℕ) (store : FrameStore) :
    (forM (SinkCall.sequence width height frames count) sink).run.run store =
      (.ok (), ofSequence width height frames count) := by
  rw [(FrameSink.ends_store _ store).forM_eq, SinkCall.sequence, List.cons_append, List.foldl_cons,
    List.foldl_append, foldl_pushes]
  simp [accept, ofSequence, numbered]

section Requests
variable {req : Request} {opts : RenderOptions} {compiled : CompiledRequest} {images : ℕ → Raster}
  {seed : UInt64} {e : Error}

theorem run_animate (hcompile : req.compile opts = .ok compiled) (store : FrameStore) :
    (req.animate opts sink).run.run store =
      (.ok (), ofSequence compiled.plan.width compiled.plan.height
        (compiled.plan.frame compiled.initial) compiled.frames) := by
  rw [Request.animate_eq_forM hcompile, run_sequence]

theorem run_renderDrift (hcompile : req.compile opts = .ok compiled)
    (himages : ∀ k, (req.drifted (.ofSeed seed) (k + 1)).1.render opts = .ok (images k))
    (count : ℕ) (store : FrameStore) :
    ((Request.renderDrift opts count seed sink).run.run req).run store =
      ((.ok (), (req.drifted (.ofSeed seed) count).1),
        ofSequence compiled.plan.width compiled.plan.height images count) := by
  apply Request.run_of_leaving
  rw [Request.leaving_renderDrift hcompile himages, ExceptT.run_bind, StateT.run_bind, run_sequence]
  rfl

theorem run_animate_of_compile_error (hcompile : req.compile opts = .error e) (store : FrameStore) :
    (req.animate opts sink).run.run store = (.error e, store) := by
  rw [Request.animate_of_compile_error hcompile]
  rfl

theorem run_renderDrift_of_compile_error (hcompile : req.compile opts = .error e) (count : ℕ)
    (seed : UInt64) (store : FrameStore) :
    ((Request.renderDrift opts count seed sink).run.run req).run store =
      ((.error (req.driftRefusal opts e), req), store) := by
  rw [Request.run_renderDrift_of_compile_error hcompile]
  rfl

end Requests

/-- A store shows the last sequence. Whatever calls it took before, an animation of a request that
compiles leaves the size and the frames of its plan, each drawn over the one before it, and a drifting
sequence leaves those of the drifted requests, both finished and numbered from zero on, with nothing
from before. A request that does not compile leaves the store as it was. -/
theorem store_holds_last_sequence (req : Request) (opts : RenderOptions) :
    (∀ history, (forM history sink).run.run empty = (.ok (), after history)) ∧
    (∀ compiled, req.compile opts = .ok compiled →
      (∃ frames : ℕ → Raster, compiled.plan.render compiled.initial = .ok (frames 0) ∧
        (∀ k, compiled.plan.composite (frames k) compiled.initial = .ok (frames (k + 1))) ∧
        ∀ history, (req.animate opts sink).run.run (after history) =
          (.ok (), ofSequence compiled.plan.width compiled.plan.height frames compiled.frames)) ∧
      ∀ seed, ∃ frames : ℕ → Raster,
        (∀ k, (req.drifted (.ofSeed seed) (k + 1)).1.render opts = .ok (frames k)) ∧
        ∀ count history,
          ((Request.renderDrift opts count seed sink).run.run req).run (after history) =
            ((.ok (), (req.drifted (.ofSeed seed) count).1),
              ofSequence compiled.plan.width compiled.plan.height frames count)) ∧
    ∀ e, req.compile opts = .error e → ∀ history,
      (req.animate opts sink).run.run (after history) = (.error e, after history) ∧
        ∀ count seed,
          ((Request.renderDrift opts count seed sink).run.run req).run (after history) =
            ((.error (req.driftRefusal opts e), req), after history) := by
  refine ⟨run_history, fun compiled hcompile => ⟨?_, fun seed => ?_⟩, fun e hcompile history => ?_⟩
  · have hplanned := Request.isPlanned_of_compile hcompile
    have hsize := Request.size_initial_of_compile hcompile
    exact ⟨compiled.plan.frame compiled.initial, Plan.nextFrame_none hsize,
      Plan.nextFrame_some hplanned hsize, fun history => run_animate hcompile _⟩
  · choose frames hframes _ _ using fun k =>
      Request.exists_render_drifted hcompile (.ofSeed seed) (k + 1)
    exact ⟨frames, hframes, fun count history => run_renderDrift hcompile hframes count _⟩
  · exact ⟨run_animate_of_compile_error hcompile _,
      fun count seed => run_renderDrift_of_compile_error hcompile count seed _⟩

/-- Three frames after a sequence that was cut short and frames out of order, and a request without
colors after such calls. -/
theorem store_holds_last_sequence_two_formula_cells :
    Request.twoFormulaCells.compile {} = .ok Request.twoFormulaCellsCompiled ∧
      (∃ (frames : ℕ → Raster) (drifted : Request),
        ((Request.renderDrift {} 3 7 sink).run.run Request.twoFormulaCells).run
            (after [.push 7 (.clear 1 1), .begin ⟨9, 9, 4⟩, .push 5 (.clear 9 9)]) =
          ((.ok (), drifted),
            ⟨some ⟨4, 1, 3⟩, [(0, frames 0), (1, frames 1), (2, frames 2)], true⟩)) ∧
      (⟨1, [], .permutations [], none⟩ : Request).compile {} = .error .requestNoColors ∧
      ((⟨1, [], .permutations [], none⟩ : Request).animate {} sink).run.run
          (after [.begin ⟨9, 9, 4⟩, .push 5 (.clear 9 9)]) =
        (.error .requestNoColors, ⟨some ⟨9, 9, 4⟩, [(5, .clear 9 9)], false⟩) := by
  obtain ⟨-, hlast, -⟩ := store_holds_last_sequence Request.twoFormulaCells {}
  obtain ⟨frames, -, hdrift⟩ := (hlast _ Request.compile_twoFormulaCells).2 7
  obtain ⟨-, -, hrefused⟩ := store_holds_last_sequence ⟨1, [], .permutations [], none⟩ {}
  have hcolorless : (⟨1, [], .permutations [], none⟩ : Request).compile {} =
      .error .requestNoColors := rfl
  exact ⟨Request.compile_twoFormulaCells, ⟨frames, _, hdrift 3 _⟩, hcolorless,
    (hrefused _ hcolorless _).1⟩

end FrameStore

end Quilt
