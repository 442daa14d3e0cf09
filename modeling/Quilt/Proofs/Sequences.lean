import Mathlib
import Quilt.Proofs.Arguments
import Quilt.Proofs.Delivery
import Quilt.Proofs.FrameStore

namespace Quilt

open Json (NumberReader)

namespace ImageSequence

theorem isName_frameName (index : ℕ) : Path.IsName (frameName index) := by
  apply Path.isName_of_lt_length
  have hfront : "frame_".length = 6 := rfl
  rw [frameName, String.length_append, String.length_append, hfront]
  omega

/-- The files of some frames. -/
def files (frames : List (ℕ × Raster)) : List (String × Entry) :=
  frames.map fun f => (frameName f.1, .image f.2)

theorem files_succ (frames : ℕ → Raster) (count : ℕ) : files (numbered frames (count + 1)) =
    files (numbered frames count) ++ [(frameName count, .image (frames count))] := by
  rw [files, numbered_succ, List.map_append]
  rfl

theorem frameName_notMem (frames : ℕ → Raster) (index : ℕ) :
    frameName index ∉ (files (numbered frames index)).map Prod.fst := by
  intro hmem
  simp only [files, numbered, List.map_map, List.mem_map, List.mem_range] at hmem
  obtain ⟨k, hk, hname⟩ := hmem
  exact hk.ne (frameName_injective hname)

theorem request_notMem (frames : List (ℕ × Raster)) :
    "request.json" ∉ (files frames).map Prod.fst := by
  intro hmem
  simp only [files, List.map_map, List.mem_map] at hmem
  obtain ⟨f, -, hname⟩ := hmem
  have hfirst := congrArg (fun name => name.toList.head?) hname
  simp [frameName] at hfirst

variable {w mid after : Workspace} {dir : Path} {place : Place} {frames : ℕ → Raster}

theorem fills_of_writeFrames [ImageLibrary] {index count : ℕ}
    (h : w.Fills mid dir place (files (numbered frames index)))
    (hwrite : (writeFrames Workspace.files dir frames index count).run.run mid = (.ok (), after)) :
    w.Fills after dir place (files (numbered frames (index + count))) := by
  induction count generalizing index mid with
  | zero =>
    cases hwrite
    exact h
  | succ count ih =>
    rw [writeFrames, List.range'_succ, List.forM_cons, ExceptT.run_bind, StateT.run_bind] at hwrite
    rcases hfirst : (Workspace.files.writeImage (dir.join (frameName index))
      (frames index)).run.run mid with ⟨fault | _, next⟩
    · rw [hfirst] at hwrite
      cases hwrite
    · rw [hfirst] at hwrite
      have hnext := h.concat (isName_frameName index) (frameName_notMem frames index) (by simp)
        (Command.write_of_writeImage hfirst)
      rw [← files_succ] at hnext
      rw [← Nat.succ_add_eq_add_succ]
      exact ih hnext hwrite

theorem fills_of_run_sequence [ImageLibrary] {width height count : ℕ} {s s' : ImageSequence}
    (h : ((forM (SinkCall.sequence width height frames count)
      (sink Workspace.files dir)).run.run s).run w = ((.ok (), s'), after)) :
    s'.written = count ∧ ∃ place, w.Fills after dir place (files (numbered frames count)) := by
  obtain ⟨result, ended, w', hrun, ⟨-, hwritten, made, hmake, hwrite⟩ | ⟨detail, rfl⟩⟩ :=
    run_sequence Workspace.files dir width height frames count s w
  · cases h.symm.trans hrun
    obtain ⟨place, hplace⟩ := Workspace.fills_of_makeDirs (Command.makeDirs_of_run hmake)
    have hfills : w.Fills after dir place (files (numbered frames (0 + count))) :=
      fills_of_writeFrames hplace hwrite
    rw [Nat.zero_add] at hfills
    exact ⟨hwritten, place, hfills⟩
  · cases h.symm.trans hrun

end ImageSequence

namespace Command
variable {w after : Workspace} {args : List String} {opts : QuiltOptions} {outDir : String}
  {verbose : Bool} {outcome : Outcome}

theorem yields_onSequence {α : Type} {act : StateT ImageSequence (StateM Workspace) (Except Error α)}
    {done : α × ImageSequence} (h : Yields (onSequence act) w done after) :
    (act.run .empty).run w = ((.ok done.1, done.2), after) := by
  obtain ⟨log, log', h⟩ := h
  rcases hrun : (act.run .empty).run w with ⟨⟨result, sequence⟩, w'⟩
  rw [run_onSequence hrun] at h
  cases result with
  | error e => cases h
  | ok a =>
    cases h
    rfl

theorem fills_of_renderDrift [ImageLibrary] {req drifted : Request} {compiled : CompiledRequest}
    {images : ℕ → Raster} {seed : UInt64} {frames : ℕ} {dir : Path} {sequence : ImageSequence}
    (hcompile : req.compile opts.render = .ok compiled)
    (himages : ∀ k, (req.drifted (.ofSeed seed) (k + 1)).1.render opts.render = .ok (images k))
    (hrun : ((Request.leaving (Request.renderDrift opts.render frames seed
      (ImageSequence.sink Workspace.files dir)) req).run.run .empty).run w =
        ((.ok drifted, sequence), after)) :
    drifted = (req.drifted (.ofSeed seed) frames).1 ∧ sequence.written = frames ∧
      ∃ place, w.Fills after dir place (ImageSequence.files (numbered images frames)) := by
  rw [Request.leaving_renderDrift hcompile himages] at hrun
  rcases hcalls : ((forM (SinkCall.sequence compiled.plan.width compiled.plan.height images frames)
      (ImageSequence.sink Workspace.files dir)).run.run .empty).run w with ⟨⟨e | _, ended⟩, filled⟩
  · have herror := (run_bind_of_error hcalls _).symm.trans hrun
    cases herror
  · have hok := (run_bind_of_ok hcalls _).symm.trans hrun
    cases hok
    exact ⟨rfl, ImageSequence.fills_of_run_sequence hcalls⟩

section Libraries
variable [NumberReader] [ImageLibrary]

theorem animate_delivers {frames : Option ℕ}
    (hargs : ofArgs {} args = .ok ⟨.animate opts outDir frames, verbose⟩)
    (hrun : (perform Workspace.files args).run w = (outcome, after)) (hstatus : outcome.status = 0) :
    ∃ text req store place, textAt w (.ofString opts.input) = .ok text ∧
      Request.ofJson text = .ok req ∧
      (({ req with numframes := frames.or req.numframes } : Request).animate opts.render
        FrameStore.sink).run.run .empty = (.ok (), store) ∧
      store.frames.map Prod.fst = List.range (frames.getD req.frames) ∧
      w.Fills after (.ofString outDir) place (ImageSequence.files store.frames) ∧
      outcome.said = [s!"wrote {frames.getD req.frames} frames to {outDir}"] := by
  obtain ⟨notice, hyields, hsaid⟩ := yields_of_perform hargs hrun hstatus
  dsimp only at hyields
  rw [course_animate] at hyields
  obtain ⟨req, _, hread, hafterRead⟩ := yields_bind hyields
  obtain ⟨rfl, text, htext, hparse⟩ := yields_readRequest hread
  obtain ⟨⟨_, sequence⟩, _, hsequence, hend⟩ := yields_bind hafterRead
  obtain ⟨rfl, rfl⟩ := yields_pure hend
  have hframes := yields_onSequence hsequence
  cases hcompile : ({ req with numframes := frames.or req.numframes } : Request).compile
    opts.render with
  | error e =>
    rw [Request.animate_of_compile_error hcompile] at hframes
    cases hframes
  | ok compiled =>
    rw [Request.animate_eq_forM hcompile] at hframes
    obtain ⟨hwritten, place, hfills⟩ := ImageSequence.fills_of_run_sequence hframes
    have hcount : compiled.frames = frames.getD req.frames := by
      rw [← (Request.compile_eq_ok.1 hcompile).2.2.2]
      cases frames <;> rfl
    rw [hcount] at hwritten hfills
    dsimp only at hsaid
    rw [hwritten] at hsaid
    -- The store in memory is given the calls that the files were written for.
    have hstore := FrameStore.run_sequence compiled.plan.width compiled.plan.height
      (compiled.plan.frame compiled.initial) (frames.getD req.frames) .empty
    rw [← hcount, ← Request.animate_eq_forM hcompile, hcount] at hstore
    exact ⟨text, req, _, place, htext, hparse, hstore, map_fst_numbered _ _, hfills, hsaid⟩

theorem drift_delivers {frames : ℕ} {seed : UInt64} {saveRequest : Bool}
    (hargs : ofArgs {} args = .ok ⟨.drift opts outDir frames seed saveRequest, verbose⟩)
    (hrun : (perform Workspace.files args).run w = (outcome, after)) (hstatus : outcome.status = 0) :
    ∃ text req drifted store place, textAt w (.ofString opts.input) = .ok text ∧
      Request.ofJson text = .ok req ∧
      ((Request.renderDrift opts.render frames seed FrameStore.sink).run.run req).run .empty =
        ((.ok (), drifted), store) ∧
      store.frames.map Prod.fst = List.range frames ∧
      w.Fills after (.ofString outDir) place (ImageSequence.files store.frames ++
        if saveRequest then [("request.json", .text drifted.toJson)] else []) ∧
      outcome.said = [s!"wrote {frames} frames to {outDir}"] := by
  obtain ⟨notice, hyields, hsaid⟩ := yields_of_perform hargs hrun hstatus
  dsimp only at hyields
  rw [course_drift] at hyields
  obtain ⟨req, start, hread, hafterRead⟩ := yields_bind hyields
  obtain ⟨rfl, text, htext, hparse⟩ := yields_readRequest hread
  obtain ⟨⟨drifted, sequence⟩, _, hsequence, hafterSequence⟩ := yields_bind hafterRead
  obtain ⟨_, _, hsave, hend⟩ := yields_bind hafterSequence
  obtain ⟨rfl, rfl⟩ := yields_pure hend
  have hframes := yields_onSequence hsequence
  cases hcompile : req.compile opts.render with
  | error e =>
    rw [Request.leaving, Request.run_renderDrift_of_compile_error hcompile] at hframes
    cases hframes
  | ok compiled =>
    -- The frames are those of the drifted requests, so every sink is given the same calls.
    choose images himages _ using fun k =>
      Request.exists_render_drifted hcompile (.ofSeed seed) (k + 1)
    obtain ⟨rfl, hwritten, place, hfills⟩ := fills_of_renderDrift hcompile himages hframes
    have hstore := FrameStore.run_renderDrift hcompile himages frames .empty
    dsimp only at hsaid
    rw [hwritten] at hsaid
    refine ⟨text, req, _, _, place, htext, hparse, hstore, map_fst_numbered _ _, ?_, hsaid⟩
    cases saveRequest with
    | false =>
      obtain ⟨-, rfl⟩ := yields_pure hsave
      rw [if_neg Bool.false_ne_true, List.append_nil]
      exact hfills
    | true =>
      exact hfills.concat (Path.isName_of_lt_length (by decide))
        (ImageSequence.request_notMem _) (by simp) (yields_writeRequest hsave)

/-- Sequences lose no frame. A command that writes one and exits with status 0 has filled its
directory with the frames of the library, as many as were asked for, each under a name of its own,
and with the request that is left behind if that is to be saved. No other file is written, and the
number is said. A name has the index of its frame in four digits or more, and no command ends
because a number of images is not the one that was announced. -/
theorem sequences_lose_no_frame :
    (∀ args opts outDir frames verbose w outcome after,
      ofArgs {} args = .ok ⟨.animate opts outDir frames, verbose⟩ →
      (perform Workspace.files args).run w = (outcome, after) → outcome.status = 0 →
      ∃ text req store place, Settles readFrames none (valuesOf "frames" args) frames ∧
        textAt w (.ofString opts.input) = .ok text ∧ Request.ofJson text = .ok req ∧
        (({ req with numframes := frames.or req.numframes } : Request).animate opts.render
          FrameStore.sink).run.run .empty = (.ok (), store) ∧
        store.frames.map Prod.fst = List.range (frames.getD req.frames) ∧
        w.Fills after (.ofString outDir) place (ImageSequence.files store.frames) ∧
        outcome.said = [s!"wrote {frames.getD req.frames} frames to {outDir}"]) ∧
    (∀ args opts outDir frames seed saveRequest verbose w outcome after,
      ofArgs {} args = .ok ⟨.drift opts outDir frames seed saveRequest, verbose⟩ →
      (perform Workspace.files args).run w = (outcome, after) → outcome.status = 0 →
      ∃ given text req drifted store place, Settles readFrames none (valuesOf "frames" args) given ∧
        frames = given.getD Request.defaultFrames ∧
        textAt w (.ofString opts.input) = .ok text ∧ Request.ofJson text = .ok req ∧
        ((Request.renderDrift opts.render frames seed FrameStore.sink).run.run req).run .empty =
          ((.ok (), drifted), store) ∧
        store.frames.map Prod.fst = List.range frames ∧
        w.Fills after (.ofString outDir) place (ImageSequence.files store.frames ++
          if saveRequest then [("request.json", .text drifted.toJson)] else []) ∧
        outcome.said = [s!"wrote {frames} frames to {outDir}"]) ∧
    (∀ index, ∃ digits : List Char,
      ImageSequence.frameName index = "frame_" ++ String.ofList digits ++ ".png" ∧
        4 ≤ digits.length ∧ Text.readDigits digits = some index) ∧
    (∀ (τ : Type) (files : Files (StateM τ)) args t expected written,
      ((perform files args).run t).1.error ≠ some (.frameCount expected written)) := by
  refine ⟨?_, ?_, ?_, ?_⟩
  · intro args opts outDir frames verbose w outcome after hargs hrun hstatus
    obtain ⟨text, req, store, place, hdelivers⟩ := animate_delivers hargs hrun hstatus
    exact ⟨text, req, store, place, settles_of_animate hargs, hdelivers⟩
  · intro args opts outDir frames seed saveRequest verbose w outcome after hargs hrun hstatus
    obtain ⟨given, hsettles, hgiven⟩ := exists_settles_of_drift hargs
    obtain ⟨text, req, drifted, store, place, hdelivers⟩ := drift_delivers hargs hrun hstatus
    exact ⟨given, text, req, drifted, store, place, hsettles, hgiven, hdelivers⟩
  · intro index
    exact ⟨_, rfl, Text.le_length_paddedDigits 10 4 index, Text.readDigits_paddedDigits 4 index⟩
  · intro τ files args t expected written h
    exact kind_ne_internal_of_perform files h rfl

end Libraries

theorem sequences_lose_no_frame_one_pixel :
    ofArgs {} ["animate", "--in", "q.json", "--out-dir", "frames", "--frames", "2"] =
        .ok ⟨.animate ⟨"q.json", 16000000, .rowsDown⟩ "frames" (some 2), false⟩ ∧
      ofArgs {} ["drift", "--in", "q.json", "--out-dir", "frames", "--save-request"] =
        .ok ⟨.drift ⟨"q.json", 16000000, .rowsDown⟩ "frames" 10 0 true, false⟩ ∧
      (∃ after place, ∃ store : FrameStore, store.frames.map Prod.fst = [0, 1] ∧
        onePixelHome.Fills after (.ofString "frames") place (ImageSequence.files store.frames)) ∧
      ∃ after place drifted, ∃ store : FrameStore, store.frames.map Prod.fst = List.range 10 ∧
        onePixelHome.Fills after (.ofString "frames") place (ImageSequence.files store.frames ++
          [("request.json", .text (Request.toJson drifted))]) := by
  obtain ⟨hanimate, hdrift, -⟩ := sequences_lose_no_frame
  have hargs : ofArgs {} ["animate", "--in", "q.json", "--out-dir", "frames", "--frames", "2"] =
      .ok ⟨.animate ⟨"q.json", 16000000, .rowsDown⟩ "frames" (some 2), false⟩ := by
    decide +kernel
  have hargs' : ofArgs {} ["drift", "--in", "q.json", "--out-dir", "frames", "--save-request"] =
      .ok ⟨.drift ⟨"q.json", 16000000, .rowsDown⟩ "frames" 10 0 true, false⟩ := by
    decide +kernel
  obtain ⟨_, _, store, place, -, -, -, -, hcount, hfills, -⟩ :=
    hanimate _ _ _ _ _ onePixelHome _ _ hargs Prod.mk.eta.symm (by decide +kernel)
  obtain ⟨_, _, _, drifted, store', place', -, -, -, -, -, hcount', hfills', -⟩ :=
    hdrift _ _ _ _ _ _ _ onePixelHome _ _ hargs' Prod.mk.eta.symm (by decide +kernel)
  exact ⟨hargs, hargs', ⟨_, place, store, hcount, hfills⟩, _, place', drifted, store', hcount',
    hfills'⟩

end Command

end Quilt
