import Mathlib
import Quilt.Proofs.Animation

namespace Quilt

/-- The calls for a number of frames when no call is refused. -/
def SinkCall.sequence (width height : ℕ) (frames : ℕ → Raster) (count : ℕ) : List SinkCall :=
  .begin ⟨width, height, count⟩ ::
    ((List.range count).map fun index => SinkCall.push index (frames index)) ++ [.finish]

theorem SinkCall.sequence_succ (width height : ℕ) (frames : ℕ → Raster) (count : ℕ) :
    sequence width height frames (count + 1) =
      (.begin ⟨width, height, count + 1⟩ ::
        (List.range count).map fun index => SinkCall.push index (frames index)) ++
          [.push count (frames count), .finish] := by
  simp [sequence, List.range_succ]

namespace FrameSink
variable {σ : Type} {sink : FrameSink (StateM σ)} {calls made : List SinkCall} {call : SinkCall}
  {outcome : Except Error Unit} {e : Error} {st mid st' : σ}

/-- How the calls end, which of them are made, and where they leave the sink: they are made in
order, up to the first one that is refused. -/
inductive Ends (sink : FrameSink (StateM σ)) :
    List SinkCall → σ → Except Error Unit → List SinkCall → σ → Prop
  | finished {st : σ} : Ends sink [] st (.ok ()) [] st
  | accepted {call : SinkCall} {calls made : List SinkCall} {outcome : Except Error Unit}
      {st mid st' : σ} (hcall : sink call st = (.ok (), mid))
      (hrest : Ends sink calls mid outcome made st') :
      Ends sink (call :: calls) st outcome (call :: made) st'
  | refused {call : SinkCall} {calls : List SinkCall} {e : Error} {st st' : σ}
      (hcall : sink call st = (.error e, st')) :
      Ends sink (call :: calls) st (.error e) [call] st'

theorem exists_ends (sink : FrameSink (StateM σ)) (calls : List SinkCall) (st : σ) :
    ∃ outcome made st', sink.Ends calls st outcome made st' := by
  induction calls generalizing st with
  | nil => exact ⟨_, _, _, .finished⟩
  | cons call calls ih =>
    rcases hcall : sink call st with ⟨outcome | _, mid⟩
    · exact ⟨_, _, _, .refused hcall⟩
    · obtain ⟨_, _, _, hrest⟩ := ih mid
      exact ⟨_, _, _, .accepted hcall hrest⟩

theorem Ends.made_eq (h : sink.Ends calls st (.ok ()) made st') : made = calls := by
  generalize houtcome : Except.ok () = outcome at h
  induction h with
  | finished => rfl
  | accepted _ _ ih => rw [ih houtcome]
  | refused => cases houtcome

/-- The sink with a list of the calls that it gets, the refused one too. -/
def recorded (sink : FrameSink (StateM σ)) : FrameSink (StateM (List SinkCall × σ)) :=
  fun call (before, st) =>
    let (outcome, st) := sink call st
    (outcome, before ++ [call], st)

theorem recorded_of_eq (hcall : sink call st = (outcome, st')) (before : List SinkCall) :
    sink.recorded call (before, st) = (outcome, before ++ [call], st') := by
  rw [recorded, hcall]

theorem Ends.recorded (h : sink.Ends calls st outcome made st') (before : List SinkCall) :
    sink.recorded.Ends calls (before, st) outcome made (before ++ made, st') := by
  induction h generalizing before with
  | finished =>
    rw [List.append_nil]
    exact .finished
  | accepted hcall _ ih =>
    rw [List.append_cons]
    exact .accepted (recorded_of_eq hcall before) (ih _)
  | refused hcall => exact .refused (recorded_of_eq hcall before)

theorem run_bind_of_accepted {f : Unit → ExceptT Error (StateM σ) Unit}
    (hcall : sink call st = (.ok (), mid)) :
    (sink call >>= f).run.run st = (f ()).run.run mid := by
  change (sink call).run.run st = _ at hcall
  simp only [ExceptT.run_bind, StateT.run_bind, hcall]
  rfl

theorem run_bind_of_refused {f : Unit → ExceptT Error (StateM σ) Unit}
    (hcall : sink call st = (.error e, st')) :
    (sink call >>= f).run.run st = (.error e, st') := by
  change (sink call).run.run st = _ at hcall
  simp only [ExceptT.run_bind, StateT.run_bind, hcall]
  rfl

theorem Ends.forM_eq (h : sink.Ends calls st outcome made st') :
    (forM calls sink).run.run st = (outcome, st') := by
  induction h with
  | finished => rfl
  | accepted hcall _ ih => rw [List.forM_cons, run_bind_of_accepted hcall, ih]
  | refused hcall => rw [List.forM_cons, run_bind_of_refused hcall]

theorem ends_store (calls : List SinkCall) (store : FrameStore) :
    FrameStore.sink.Ends calls store (.ok ()) calls (calls.foldl FrameStore.accept store) := by
  induction calls generalizing store with
  | nil => exact .finished
  | cons call calls ih => exact .accepted rfl (ih _)

end FrameSink

namespace Plan
variable {p : Plan} {s : ColorState}

/-- An animation in a state of another size fails before its sink is told anything. Otherwise each
frame is drawn over the one before it, however many are asked for, and the animation ends as the
sequence of calls for its frames does: with no error of its own, and with no other call. -/
theorem animate_protocol (hp : p.IsPlanned) (s : ColorState) :
    (s.size ≠ p.grid.numcolors → ∃ e : Error, e.kind = .shape ∧
      ∀ (count : ℕ) (σ : Type) (sink : FrameSink (StateM σ)) (st : σ),
        (p.animate s count sink.recorded).run.run ([], st) = (.error e, [], st)) ∧
      (s.size = p.grid.numcolors → ∃ frames : ℕ → Raster, p.render s = .ok (frames 0) ∧
        (∀ k, p.composite (frames k) s = .ok (frames (k + 1))) ∧
        (∀ k, (frames k).width = p.width ∧ (frames k).height = p.height) ∧
        ∀ (count : ℕ) (σ : Type) (sink : FrameSink (StateM σ)) (st : σ), ∃ outcome made st',
          sink.Ends (SinkCall.sequence p.width p.height frames count) st outcome made st' ∧
            (p.animate s count sink).run.run st = (outcome, st') ∧
            (p.animate s count sink.recorded).run.run ([], st) = (outcome, made, st')) := by
  constructor
  · intro hs
    refine ⟨.stateColors s.size p.grid.numcolors, rfl, fun count σ sink st => ?_⟩
    rw [animate_of_size_ne hs]
    rfl
  · intro hs
    refine ⟨p.frame s, nextFrame_none hs, nextFrame_some hp hs, sides_frame hp s, ?_⟩
    intro count σ sink st
    obtain ⟨outcome, made, st', hends⟩ :=
      sink.exists_ends (SinkCall.sequence p.width p.height (p.frame s) count) st
    refine ⟨outcome, made, st', hends, ?_, ?_⟩
    · rw [animate_eq_forM hp hs]
      exact hends.forM_eq
    · rw [animate_eq_forM hp hs]
      exact (hends.recorded []).forM_eq

theorem animate_protocol_two_by_three :
    twoByThree.IsPlanned ∧ ∃ frames : ℕ → Raster,
      twoByThree.render ⟨[.black, ⟨255, 0, 0⟩]⟩ = .ok (frames 0) ∧
        ∃ outcome made store,
          FrameStore.sink.Ends (SinkCall.sequence 4 9 frames 3) .empty outcome made store ∧
            (twoByThree.animate ⟨[.black, ⟨255, 0, 0⟩]⟩ 3 FrameStore.sink.recorded).run.run
              ([], .empty) = (outcome, made, store) := by
  obtain ⟨frames, hfirst, -, -, hruns⟩ :=
    (animate_protocol twoByThree_isPlanned ⟨[.black, ⟨255, 0, 0⟩]⟩).2 rfl
  obtain ⟨outcome, made, store, hends, -, hrun⟩ := hruns 3 FrameStore FrameStore.sink .empty
  exact ⟨twoByThree_isPlanned, frames, hfirst, outcome, made, store, hends, hrun⟩

end Plan

end Quilt
