import Mathlib
import Quilt.Proofs.DriftProtocol
import Quilt.Proofs.RequestText

namespace Quilt

open Json (NumberReader)

theorem length_flatten_flatten {α : Type} (rows : List (List (List α))) :
    rows.flatten.flatten.length = (rows.map (·.map List.length)).flatten.sum := by
  rw [List.length_flatten, List.map_flatten]

/-- Whether the slot that a step selects fits its word. -/
def DriftStep.FitsWord : DriftStep → Prop
  | formula .. => True
  | selection _ _ _ source => source < UInt64.size

namespace Functions
variable {functions : Functions} {step : DriftStep}

theorem length_slots_applyStep (functions : Functions) (step : DriftStep) :
    (functions.applyStep step).slots.length = functions.slots.length := by
  cases functions with
  | expressions rows => cases step <;> rfl
  | permutations rows =>
    cases step with
    | formula => rfl
    | selection row col slot source =>
      simp only [applyStep, slots, length_flatten_flatten]
      rw [map_modify_of_eq fun cells => map_modify_of_eq (fun cell => List.length_set) cells col]

theorem keepsForm_applyStep (h : functions.KeepsForm) (step : DriftStep) :
    (functions.applyStep step).KeepsForm := by
  have hlength := length_slots_applyStep functions step
  cases functions with
  | expressions rows => cases step <;> trivial
  | permutations rows =>
    have hpos : 0 < ((permutations rows).applyStep step).slots.length :=
      hlength.symm ▸ List.length_pos_iff.2 h
    cases step <;> exact List.length_pos_iff.1 hpos

theorem slots_lt_applyStep (h : ∀ slot ∈ functions.slots, slot < UInt64.size)
    (hstep : step.FitsWord) : ∀ slot ∈ (functions.applyStep step).slots, slot < UInt64.size := by
  cases functions with
  | expressions rows => cases step <;> exact h
  | permutations rows =>
    cases step with
    | formula => exact h
    | selection row col slot source =>
      simp only [applyStep, slots, List.forall_mem_flatten] at h ⊢
      refine forall_mem_modify (fun cells => ?_) h row
      refine fun hcells => forall_mem_modify (fun cell hcell s hs => ?_) hcells col
      obtain hs | rfl := List.mem_or_eq_of_mem_set hs
      · exact hcell s hs
      · exact hstep

end Functions

namespace Request
variable {req after : Request} {step : DriftStep} {text : String}

theorem Draws.fitsWord (h : req.Draws (.ok step)) : step.FitsWord := by
  cases h with
  | formula => trivial
  | selection _ _ _ hsource => exact hsource.2

theorem Storable.applyStep (h : req.Storable) (hstep : step.FitsWord) :
    (req.applyStep step).Storable where
  fits := ⟨h.fits.iterations_lt, h.fits.numframes_lt,
    Functions.slots_lt_applyStep h.fits.slots_lt hstep⟩
  finite := h.finite
  form := Functions.keepsForm_applyStep h.form step

theorem Storable.drift (h : req.Storable) (random : Random) : (req.drift random).1.2.Storable := by
  obtain ⟨drifted, hdrift, hdrifts⟩ := takes_drift req random
  rw [hdrift]
  cases hdrifts with
  | kept => exact h
  | changed hdraws => exact h.applyStep hdraws.fitsWord

/-- The requests that successful drifts lead to, whatever generator each of them draws from. -/
inductive DriftsTo (req : Request) : Request → Prop
  | refl : DriftsTo req req
  | step {mid after : Request} {step : DriftStep} {random random' : Random} (h : DriftsTo req mid)
      (hdrift : mid.drift random = ((.ok step, after), random')) : DriftsTo req after

/-- What a drift keeps, whether it takes a step or not. -/
def KeptByDrift (P : Request → Prop) : Prop :=
  ∀ req : Request, P req → ∀ random, P (req.drift random).1.2

namespace KeptByDrift
variable {P : Request → Prop}

theorem drifted (hP : KeptByDrift P) (h : P req) (random : Random) (count : ℕ) :
    P (req.drifted random count).1 := by
  induction count with
  | zero => exact h
  | succ count ih => exact hP _ ih _

theorem of_driftsTo (hP : KeptByDrift P) (h : P req) (hdrifts : req.DriftsTo after) :
    P after := by
  induction hdrifts with
  | refl => exact h
  | @step mid after _ random _ _ hdrift ih =>
    have hafter := hP mid ih random
    rw [hdrift] at hafter
    exact hafter

end KeptByDrift

theorem exists_last_frame {opts : RenderOptions} {seed : UInt64} {count : ℕ} {σ : Type}
    {sink : FrameSink (StateM σ)} {st st' : σ} {made : List SinkCall}
    (hrun : ((renderDrift opts (count + 1) seed sink.recorded).run.run req).run ([], st) =
      ((.ok (), after), made, st')) :
    after = (req.drifted (.ofSeed seed) (count + 1)).1 ∧ ∃ before frame,
      made = before ++ [.push count frame, .finish] ∧ after.render opts = .ok frame := by
  cases hcompile : req.compile opts with
  | error e =>
    obtain ⟨e', herror⟩ := exists_run_renderDrift_error hcompile sink.recorded (count + 1) seed
      ([], st)
    rw [herror] at hrun
    cases hrun
  | ok compiled =>
    choose frames hframes _ _ using fun k => exists_render_drifted hcompile (.ofSeed seed) (k + 1)
    obtain ⟨outcome, calls, st'', hends⟩ := sink.exists_ends
      (SinkCall.sequence compiled.plan.width compiled.plan.height frames (count + 1)) st
    obtain ⟨last, hlast, hrecord⟩ := run_renderDrift hcompile hframes (hends.recorded [])
    rw [hrecord] at hrun
    obtain ⟨⟨rfl, rfl⟩, rfl, rfl⟩ := hrun
    -- Nothing has been refused, so that all the calls have been made, the last frame among them.
    have hcalls := hends.made_eq
    rw [SinkCall.sequence_succ] at hcalls
    obtain rfl : last = .finish := by
      rw [hcalls, List.getLast?_append_cons] at hlast
      exact (Option.some.inj hlast).symm
    exact ⟨rfl, _, frames count, hcalls, hframes count⟩

theorem colors_drift (req : Request) (random : Random) :
    (req.drift random).1.2.colors = req.colors := by
  obtain ⟨drifted, hdrift, hdrifts⟩ := takes_drift req random
  rw [hdrift]
  cases hdrifts <;> rfl

section Reading
variable [NumberReader]

theorem ReadsBack.drift (h : req.ReadsBack) (random : Random) :
    (req.drift random).1.2.ReadsBack := by
  rw [ReadsBack, colors_drift]
  exact h

theorem keptByDrift_storable_readsBack :
    KeptByDrift fun req => req.Storable ∧ req.ReadsBack :=
  fun _ h random => ⟨h.1.drift random, h.2.drift random⟩

/-- Drifts of a request that was read from a text, and whose channels are read back from their
numerals, lead to requests that are read back from their texts. So the last frame of a drifting
sequence is what the request that it leaves, once it has been saved and read back, renders to. -/
theorem ofJson_toJson_of_drifts (h : ofJson text = .ok req) (hreads : req.ReadsBack) :
    (∀ after, req.DriftsTo after → ofJson after.toJson = .ok after) ∧
      ∀ (opts : RenderOptions) (seed : UInt64) (count : ℕ) (σ : Type) (sink : FrameSink (StateM σ))
        (st st' : σ) (made : List SinkCall) (after : Request),
        ((renderDrift opts (count + 1) seed sink.recorded).run.run req).run ([], st) =
          ((.ok (), after), made, st') →
        ∃ before frame, made = before ++ [.push count frame, .finish] ∧
          (ofJson after.toJson >>= fun reloaded => reloaded.render opts) = .ok frame := by
  have hreq : req.Storable ∧ req.ReadsBack := ⟨storable_of_ofJson h, hreads⟩
  constructor
  · intro after hdrifts
    obtain ⟨hstorable, hreads⟩ := keptByDrift_storable_readsBack.of_driftsTo hreq hdrifts
    exact ofJson_toJson hstorable hreads
  intro opts seed count σ sink st st' made after hrun
  obtain ⟨hafter, before, frame, hmade, hrender⟩ := exists_last_frame hrun
  have hreload : ofJson after.toJson = .ok after := by
    obtain ⟨hstorable, hreads⟩ :=
      keptByDrift_storable_readsBack.drifted hreq (.ofSeed seed) (count + 1)
    rw [hafter]
    exact ofJson_toJson hstorable hreads
  refine ⟨before, frame, hmade, ?_⟩
  rw [hreload]
  exact hrender

end Reading

theorem ofJson_toJson_of_drifts_two_formula_cells :
    ofJson twoFormulaCells.toJson = .ok twoFormulaCells ∧ ∃ before frame after store,
      ((renderDrift {} 3 7 FrameStore.sink.recorded).run.run twoFormulaCells).run ([], .empty) =
        ((.ok (), after), before ++ [.push 2 frame, .finish], store) ∧
      (ofJson after.toJson >>= fun reloaded => reloaded.render {}) = .ok frame := by
  have hreads : twoFormulaCells.ReadsBack := readsBack_of_isShort (by decide +kernel)
  have hread : ofJson twoFormulaCells.toJson = .ok twoFormulaCells := by
    refine ofJson_toJson ⟨⟨by decide, by simp [twoFormulaCells],
      by simp [twoFormulaCells, Functions.slots]⟩, ?_, trivial⟩ hreads
    decide +kernel
  choose frames hframes _ _ using fun k =>
    exists_render_drifted compile_twoFormulaCells (.ofSeed 7) (k + 1)
  obtain ⟨last, -, hrun⟩ := run_renderDrift compile_twoFormulaCells hframes
    ((FrameSink.ends_store (SinkCall.sequence 4 1 frames 3) .empty).recorded [])
  obtain ⟨before, frame, hmade, hreload⟩ :=
    (ofJson_toJson_of_drifts hread hreads).2 {} 7 2 FrameStore FrameStore.sink .empty _ _ _ hrun
  exact ⟨hread, before, frame, _, _, hmade ▸ hrun, hreload⟩

end Request

end Quilt
