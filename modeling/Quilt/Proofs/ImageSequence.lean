import Mathlib
import Quilt.Files.ImageSequence
import Quilt.Proofs.Numeral
import Quilt.Proofs.Protocol

namespace Quilt.ImageSequence

theorem frameName_injective : Function.Injective frameName := by
  intro a b h
  have hdigits : Text.paddedDigits 10 4 a = Text.paddedDigits 10 4 b := by
    have hlist := congrArg String.toList h
    simpa [frameName, String.toList_append] using hlist
  have hvalue := congrArg (fun digits => Nat.ofDigitChars 10 digits 0) hdigits
  simpa only [Text.ofDigitChars_paddedDigits, mul_zero, zero_add] using hvalue

section Runs
variable {τ : Type} {files : Files (StateM τ)} {dir : Path} {frames : ℕ → Raster} {index : ℕ}
  {t t' : τ} {fault : FileFault}

theorem run_lift {act : ExceptT FileFault (StateM τ) Unit} {result : Except FileFault Unit}
    (h : act.run.run t = (result, t')) (explain : FileFault → Error) (s : ImageSequence) :
    ((ExceptT.mk (StateT.lift (act.adapt explain).run) :
      ExceptT Error (StateT ImageSequence (StateM τ)) Unit).run.run s).run t =
        ((result.mapError explain, s), t') := by
  change (((act.run.run t).1.mapError explain, s), (act.run.run t).2) = _
  rw [h]

theorem run_begin_of_ok (h : (files.makeDirs dir).run.run t = (.ok (), t')) (config : FrameConfig)
    (s : ImageSequence) : ((sink files dir (.begin config)).run.run s).run t =
      ((.ok (), ⟨some config, 0, s.log ++ [.sequenceStarted config dir]⟩), t') :=
  run_bind_of_ok (run_lift h _ s) _

theorem run_begin_of_error (h : (files.makeDirs dir).run.run t = (.error fault, t'))
    (config : FrameConfig) (s : ImageSequence) :
    ((sink files dir (.begin config)).run.run s).run t =
      ((.error (fault.toError "create output dir" dir), s), t') :=
  run_bind_of_error (run_lift h _ s) _

theorem run_push_of_ok {raster : Raster}
    (h : (files.writeImage (dir.join (frameName index)) raster).run.run t = (.ok (), t'))
    (s : ImageSequence) : ((sink files dir (.push index raster)).run.run s).run t =
      ((.ok (), ⟨s.config, s.written + 1,
        s.log ++ [.frameWritten index (dir.join (frameName index))]⟩), t') :=
  run_bind_of_ok (run_lift h _ s) _

theorem run_push_of_error {raster : Raster}
    (h : (files.writeImage (dir.join (frameName index)) raster).run.run t = (.error fault, t'))
    (s : ImageSequence) : ((sink files dir (.push index raster)).run.run s).run t =
      ((.error (fault.toError "write png" (dir.join (frameName index))), s), t') :=
  run_bind_of_error (run_lift h _ s) _

/-- The images of some frames, written one after the other. -/
def writeFrames (files : Files (StateM τ)) (dir : Path) (frames : ℕ → Raster) (index count : ℕ) :
    ExceptT FileFault (StateM τ) Unit :=
  forM (List.range' index count) fun k => files.writeImage (dir.join (frameName k)) (frames k)

theorem run_pushes (files : Files (StateM τ)) (dir : Path) (frames : ℕ → Raster) (count index : ℕ)
    (s : ImageSequence) (t : τ) : ∃ result s' t',
      ((forM ((List.range' index count).map fun k => SinkCall.push k (frames k))
        (sink files dir)).run.run s).run t = ((result, s'), t') ∧
      (result = .ok () ∧ s'.config = s.config ∧ s'.written = s.written + count ∧
          (writeFrames files dir frames index count).run.run t = (.ok (), t') ∨
        ∃ detail, result = .error (.reported .other detail)) := by
  induction count generalizing index s t with
  | zero => exact ⟨_, _, _, rfl, .inl ⟨rfl, rfl, rfl, rfl⟩⟩
  | succ count ih =>
    rw [List.range'_succ, List.map_cons, List.forM_cons]
    rcases hwrite : (files.writeImage (dir.join (frameName index)) (frames index)).run.run t with
      ⟨fault | _, mid⟩
    · exact ⟨_, _, _, run_bind_of_error (run_push_of_error hwrite s) _, .inr ⟨_, rfl⟩⟩
    · obtain ⟨result, s', t', hrun, houtcome⟩ := ih (index + 1)
        ⟨s.config, s.written + 1, s.log ++ [.frameWritten index (dir.join (frameName index))]⟩ mid
      refine ⟨result, s', t', (run_bind_of_ok (run_push_of_ok hwrite s) _).trans hrun,
        houtcome.imp_left fun ⟨hresult, hconfig, hwritten, hrest⟩ => ⟨hresult, hconfig, ?_, ?_⟩⟩
      · rw [hwritten]
        exact Nat.succ_add_eq_add_succ s.written count
      · rw [writeFrames, List.range'_succ, List.forM_cons, ExceptT.run_bind, StateT.run_bind,
          hwrite]
        exact hrest

theorem run_sequence (files : Files (StateM τ)) (dir : Path) (width height : ℕ)
    (frames : ℕ → Raster) (count : ℕ) (s : ImageSequence) (t : τ) : ∃ result s' t',
      ((forM (SinkCall.sequence width height frames count) (sink files dir)).run.run s).run t =
        ((result, s'), t') ∧
      ((result = .ok () ∧ s'.written = count ∧ ∃ mid,
          (files.makeDirs dir).run.run t = (.ok (), mid) ∧
            (writeFrames files dir frames 0 count).run.run mid = (.ok (), t')) ∨
        ∃ detail, result = .error (.reported .other detail)) := by
  rw [SinkCall.sequence, List.cons_append, List.forM_cons, List.forM_append]
  rcases hmake : (files.makeDirs dir).run.run t with ⟨fault | _, mid⟩
  · exact ⟨_, _, _, run_bind_of_error (run_begin_of_error hmake _ s) _, .inr ⟨_, rfl⟩⟩
  · rw [run_bind_of_ok (run_begin_of_ok hmake _ s), List.range_eq_range']
    obtain ⟨result, s', t', hrun, ⟨rfl, hconfig, hwritten, hwrite⟩ | ⟨detail, rfl⟩⟩ :=
      run_pushes files dir frames count 0
        ⟨some ⟨width, height, count⟩, 0, s.log ++ [.sequenceStarted ⟨width, height, count⟩ dir]⟩ mid
    · -- All images have been counted, so that the sequence may end.
      have hclose : s'.close = .ok () := by
        rw [close, hconfig, hwritten]
        simp
      have hfinish : ((sink files dir .finish).run.run s').run t' = ((.ok (), s'), t') := by
        change ((s'.close, s'), t') = _
        rw [hclose]
      refine ⟨.ok (), s', t', ?_, .inl ⟨rfl, ?_, mid, rfl, hwrite⟩⟩
      · rw [run_bind_of_ok hrun, List.forM_cons, run_bind_of_ok hfinish]
        rfl
      · rw [hwritten, Nat.zero_add]
    · exact ⟨_, _, _, run_bind_of_error hrun _, .inr ⟨detail, rfl⟩⟩

end Runs

end Quilt.ImageSequence
