import Mathlib
import Quilt.Proofs.Failures
import Quilt.Proofs.RequestText
import Quilt.Proofs.Workspace

namespace Quilt

open Json (NumberReader)

theorem ImageLibrary.decode?_of_brace [ImageLibrary] (cs : List Char) :
    decode? .png (String.ofList ('\x7b' :: cs)).toUTF8 = none := by
  refine Option.eq_none_iff_forall_ne_some.2 fun raster h => ?_
  have hbytes : (String.ofList ('\x7b' :: cs)).toUTF8 = ⟨#[0x7b]⟩ ++ cs.utf8Encode := by
    change List.utf8Encode ('\x7b' :: cs) = _
    rw [List.utf8Encode_cons]
    rfl
  have hsignature := extract_of_decode? h
  rw [hbytes] at hsignature
  have hfirst := congrArg (fun bytes : Array UInt8 => bytes[0]?) hsignature
  simp [pngSignature] at hfirst

namespace Request

theorem exists_toJson_eq (req : Request) : ∃ cs, req.toJson = String.ofList ('\x7b' :: cs) := by
  obtain ⟨iterations, colors, functions, numframes⟩ := req
  cases numframes <;> exact ⟨_, rfl⟩

end Request

namespace Command
variable {w mid after : Workspace} {path : Path}

theorem textAt_of_text {text : String} (h : w.read path = .ok (.text text)) :
    textAt w path = .ok text := by
  rw [textAt, h]

theorem eq_ok_of_run_set {written : Except FileFault Workspace}
    (h : (match written with
      | .ok w => (set w : ExceptT FileFault (StateM Workspace) Unit)
      | .error fault => throw fault).run.run w = (.ok (), after)) : written = .ok after := by
  cases written with
  | error fault => cases congrArg Prod.fst h
  | ok made => exact congrArg Except.ok (congrArg Prod.snd h)

section Images
variable [ImageLibrary]

/-- The pixels at the end of a path, if there is a PNG. -/
def pngAt (w : Workspace) (path : Path) : Except FileFault Raster :=
  match w.read path with
  | .ok entry =>
    match entry.readAs? .png with
    | some raster => .ok raster
    | none => .error .notImage
  | .error fault => .error fault

theorem run_readPng (w : Workspace) (path : Path) :
    (Workspace.files.readImage .png path).run.run w = (pngAt w path, w) := by
  unfold pngAt
  change (match w.read path with
    | .ok entry =>
      match entry.readAs? .png with
      | some raster => (pure raster : ExceptT FileFault (StateM Workspace) Raster)
      | none => throw FileFault.notImage
    | .error fault => throw fault).run.run w = _
  split
  · split <;> rfl
  · rfl

theorem pngAt_of_image {raster : Raster} (h : w.read path = .ok (.image raster)) :
    pngAt w path = .ok raster := by
  rw [pngAt, h]
  rfl

theorem pngAt_of_toJson {req : Request} (h : w.read path = .ok (.text req.toJson)) :
    pngAt w path = .error .notImage := by
  obtain ⟨cs, hcs⟩ := req.exists_toJson_eq
  have hdecode : (Entry.text req.toJson).readAs? .png = none := by
    rw [hcs]
    exact ImageLibrary.decode?_of_brace cs
  rw [pngAt, h]
  dsimp only
  rw [hdecode]

theorem write_of_writeText {text : String}
    (h : (Workspace.files.writeText path text).run.run w = (.ok (), after)) :
    w.write path (.text text) = .ok after :=
  eq_ok_of_run_set h

theorem write_of_writeImage {raster : Raster}
    (h : (Workspace.files.writeImage path raster).run.run w = (.ok (), after)) :
    w.write path (.image raster) = .ok after :=
  eq_ok_of_run_set h

theorem makeDirs_of_run (h : (Workspace.files.makeDirs path).run.run w = (.ok (), after)) :
    w.makeDirs path = (none, after) := by
  unfold Workspace.files at h
  dsimp only at h
  rw [run_get_bind] at h
  rcases hmade : w.makeDirs path with ⟨_ | fault, made⟩
  · rw [hmade] at h
    dsimp only at h
    rw [run_set_bind] at h
    exact congrArg (none, ·) (congrArg Prod.snd h)
  · rw [hmade] at h
    dsimp only at h
    rw [run_set_bind] at h
    cases congrArg Prod.fst h

end Images

/-- What a part of a command gives, and where it leaves the files, when it succeeds. -/
def Yields {α : Type} (part : Course (StateM Workspace) α) (w : Workspace) (a : α)
    (after : Workspace) : Prop :=
  ∃ log log', (part.run.run log).run w = ((.ok a, log'), after)

section Yields
variable {α β : Type} {x : Course (StateM Workspace) α} {f : α → Course (StateM Workspace) β}
  {a a' : α} {b : β} {task : String}

theorem yields_bind (h : Yields (x >>= f) w b after) :
    ∃ a mid, Yields x w a mid ∧ Yields (f a) mid b after := by
  obtain ⟨log, log', h⟩ := h
  rcases hx : (x.run.run log).run w with ⟨⟨_ | a, log₁⟩, mid⟩
  · rw [run_bind_of_error hx] at h
    cases h
  · rw [run_bind_of_ok hx] at h
    exact ⟨a, mid, ⟨log, log₁, hx⟩, log₁, log', h⟩

theorem yields_pure (h : Yields (pure a) w a' after) : a' = a ∧ after = w := by
  obtain ⟨log, log', h⟩ := h
  cases h
  exact ⟨rfl, rfl⟩

theorem yields_modify {g : List LogEntry → List LogEntry} {u : Unit}
    (h : Yields (modify g) w u after) : after = w := by
  obtain ⟨log, log', h⟩ := h
  cases h
  rfl

theorem yields_check {check : Except Error α}
    (h : Yields (ExceptT.mk (pure check)) w a after) : check = .ok a ∧ after = w := by
  obtain ⟨log, log', h⟩ := h
  cases h
  exact ⟨rfl, rfl⟩

theorem yields_onFile {act : ExceptT FileFault (StateM Workspace) α}
    (h : Yields (onFile task path act) w a after) : act.run.run w = (.ok a, after) := by
  obtain ⟨log, log', h⟩ := h
  change (((act.run.run w).1.mapError (FileFault.toError task path), log), (act.run.run w).2) =
    ((.ok a, log'), after) at h
  rcases hact : act.run.run w with ⟨_ | made, mid⟩
  · rw [hact] at h
    cases congrArg (fun r => r.1.1) h
  · rw [hact] at h
    cases h
    rfl

theorem yields_readRequest [NumberReader] [ImageLibrary] {input : String} {req : Request}
    (h : Yields (readRequest Workspace.files input) w req after) : after = w ∧
      ∃ text, textAt w (.ofString input) = .ok text ∧ Request.ofJson text = .ok req := by
  obtain ⟨log, log', h⟩ := h
  rw [run_readRequest, StateT.run_bind, run_readText] at h
  cases htext : textAt w (.ofString input) with
  | error fault =>
    rw [htext] at h
    cases h
  | ok text =>
    rw [htext] at h
    change ((requestOf (.ofString input) (.ok text), log), w) = _ at h
    cases hparse : Request.ofJson text with
    | error e =>
      rw [requestOf, hparse] at h
      cases h
    | ok read =>
      rw [requestOf, hparse] at h
      cases h
      exact ⟨rfl, text, rfl, hparse⟩

theorem yields_writeRequest [ImageLibrary] {req : Request}
    (h : Yields (writeRequest Workspace.files path req) w () after) :
    w.write path (.text req.toJson) = .ok after := by
  obtain ⟨_, written, hwrite, hlog⟩ := yields_bind h
  obtain rfl := yields_modify hlog
  exact write_of_writeText (yields_onFile hwrite)

theorem yields_writeOutput [ImageLibrary] {raster : Raster}
    (h : Yields (writeOutput Workspace.files path raster) w () after) :
    ∃ mid place, w.Writes mid [] ∧ mid.resolve path = .ok place ∧
      mid.Writes after [(place, .image raster)] := by
  obtain ⟨_, mid, hmake, hwrite⟩ := yields_bind h
  obtain ⟨hmade, -⟩ := Workspace.writes_of_makeDirs (makeDirs_of_run (yields_onFile hmake))
  obtain ⟨place, hplace, hwritten⟩ :=
    Workspace.writes_of_write (write_of_writeImage (yields_onFile hwrite))
  exact ⟨mid, place, hmade, hplace, hwritten⟩

theorem yields_of_perform [NumberReader] [ImageLibrary] {args : List String}
    {invocation : Invocation} {outcome : Outcome} (hargs : ofArgs {} args = .ok invocation)
    (hrun : (perform Workspace.files args).run w = (outcome, after)) (hstatus : outcome.status = 0) :
    ∃ notice, Yields (course Workspace.files invocation.command) w notice after ∧
      outcome.said = [notice] := by
  rw [perform, hargs] at hrun
  rcases hcourse : ((course Workspace.files invocation.command).run.run []).run w with
    ⟨⟨e | notice, log⟩, mid⟩
  · simp only [StateT.run_bind, hcourse] at hrun
    cases hrun
    cases hstatus
  · simp only [StateT.run_bind, hcourse] at hrun
    cases hrun
    exact ⟨notice, ⟨[], log, hcourse⟩, rfl⟩

end Yields

section Libraries
variable [NumberReader] [ImageLibrary]

/-- What a rendered image is delivered with: the file at its path is a PNG of what the request
renders to, and the request lies beside it if it is to be saved. -/
def Delivers (w after : Workspace) (opts : QuiltOptions) (out : String) (saveRequest : Bool) : Prop :=
  ∃ text req raster, textAt w (.ofString opts.input) = .ok text ∧ Request.ofJson text = .ok req ∧
    req.render opts.render = .ok raster ∧ pngAt after (.ofString out) = .ok raster ∧
    (saveRequest = true → ∃ saved,
      textAt after ((Path.ofString out).withExtension "json") = .ok saved ∧
        Request.ofJson saved = .ok req)

/-- An image and its request, if its channels are read back from their numerals, are both delivered
by a command that reports success, unless the request is saved at the very path of the image. Then it
replaces the image. -/
theorem delivers_iff {args : List String} {opts : QuiltOptions} {out : String}
    {saveRequest verbose : Bool} {outcome : Outcome}
    (hargs : ofArgs {} args = .ok ⟨.render opts out saveRequest, verbose⟩)
    (hrun : (perform Workspace.files args).run w = (outcome, after)) (hstatus : outcome.status = 0)
    (hreads : saveRequest = true → ∀ text req, textAt w (.ofString opts.input) = .ok text →
      Request.ofJson text = .ok req → req.ReadsBack) :
    outcome.said = [s!"wrote {out}"] ∧ (Delivers w after opts out saveRequest ↔
      (saveRequest = true → (Path.ofString out).withExtension "json" ≠ .ofString out)) := by
  obtain ⟨notice, hyields, hsaid⟩ := yields_of_perform hargs hrun hstatus
  dsimp only at hyields
  rw [course_render] at hyields
  obtain ⟨req, _, hread, hafterRead⟩ := yields_bind hyields
  obtain ⟨rfl, text, htext, hparse⟩ := yields_readRequest hread
  obtain ⟨raster, _, hcheck, hafterRender⟩ := yields_bind hafterRead
  obtain ⟨hrender, rfl⟩ := yields_check hcheck
  obtain ⟨_, drawn, houtput, hafterOutput⟩ := yields_bind hafterRender
  obtain ⟨_, saved, hsave, hend⟩ := yields_bind hafterOutput
  obtain ⟨rfl, rfl⟩ := yields_pure hend
  obtain ⟨made, place, -, hplace, hdrawn⟩ := yields_writeOutput houtput
  have hdrawnRead := hdrawn.read_eq hplace (List.mem_singleton_self _) (by simp)
  refine ⟨hsaid, ?_⟩
  cases saveRequest with
  | false =>
    obtain ⟨-, rfl⟩ := yields_pure hsave
    exact iff_of_true ⟨text, req, raster, htext, hparse, hrender, pngAt_of_image hdrawnRead, nofun⟩
      nofun
  | true =>
    obtain ⟨target, htarget, hsaved⟩ := Workspace.writes_of_write (yields_writeRequest hsave)
    have hsavedRead := hsaved.read_eq htarget (List.mem_singleton_self _) (by simp)
    constructor
    · -- At one place the text is what is left, and it is no image.
      rintro ⟨_, _, _, -, -, -, hpng, -⟩ - hsame
      rw [hsame] at hsavedRead
      cases hpng.symm.trans (pngAt_of_toJson hsavedRead)
    · intro hne
      -- The two writes go to different places, and so the second one leaves the image.
      have hdistinct : place ≠ target := Workspace.resolve_ne_of_withExtension (by decide) (hne rfl)
        (hdrawn.resolve_eq hplace) htarget
      have hboth := hdrawn.trans hsaved (by simpa using hdistinct)
      have himage := hboth.read_eq hplace (List.mem_cons_self ..) (by simp)
      have hreload := Request.ofJson_toJson (Request.storable_of_ofJson hparse)
        (hreads rfl text req htext hparse)
      exact ⟨text, req, raster, htext, hparse, hrender, pngAt_of_image himage, fun _ =>
        ⟨_, textAt_of_text hsavedRead, hreload⟩⟩

end Libraries

/-- The text of a request for one pixel. -/
def onePixelText : String :=
  "\x7b\"iterations\": 0, \"colors\": [[9, 8, 7]], \"functions\": [[[0]]]\x7d"

/-- A directory that holds nothing but the request. -/
def onePixelHome : Workspace := ⟨["home"], [(["home", "q.json"], .text onePixelText)]⟩

/-- The arguments that render the pixel and save its request. -/
def renderAndSaveArgs (out : String) : List String :=
  ["render", "--in", "q.json", "--out", out, "--save-request"]

theorem delivers_iff_one_pixel :
    ofArgs {} (renderAndSaveArgs "q.png") =
        .ok ⟨.render ⟨"q.json", 16000000, .rowsDown⟩ "q.png" true, false⟩ ∧
      ∃ outcome after, (perform Workspace.files (renderAndSaveArgs "q.png")).run onePixelHome =
          (outcome, after) ∧
        outcome.status = 0 ∧
          Delivers onePixelHome after ⟨"q.json", 16000000, .rowsDown⟩ "q.png" true := by
  have hargs : ofArgs {} (renderAndSaveArgs "q.png") =
      .ok ⟨.render ⟨"q.json", 16000000, .rowsDown⟩ "q.png" true, false⟩ := by
    decide +kernel
  have hstatus :
      ((perform Workspace.files (renderAndSaveArgs "q.png")).run onePixelHome).1.status = 0 := by
    decide +kernel
  have hreads : ∀ text req, textAt onePixelHome (.ofString "q.json") = .ok text →
      Request.ofJson text = .ok req → req.ReadsBack := by
    intro text req htext hparse
    have hread : textAt onePixelHome (.ofString "q.json") = .ok onePixelText := by decide +kernel
    obtain rfl := Except.ok.inj (hread.symm.trans htext)
    have hrequest : Request.ofJson onePixelText =
        .ok ⟨0, [.triple [9, 8, 7]], .permutations [[[0]]], none⟩ := by decide +kernel
    obtain rfl := Except.ok.inj (hrequest.symm.trans hparse)
    exact Request.readsBack_of_isShort (by decide +kernel)
  have hdelivers := (delivers_iff hargs Prod.mk.eta.symm hstatus fun _ => hreads).2
  exact ⟨hargs, _, _, Prod.mk.eta.symm, hstatus, hdelivers.2 fun _ => by decide +kernel⟩

/-- The request is saved over the image, and the command reports the image. -/
theorem not_delivers_one_pixel :
    ofArgs {} (renderAndSaveArgs "o.json") =
        .ok ⟨.render ⟨"q.json", 16000000, .rowsDown⟩ "o.json" true, false⟩ ∧
      ∃ outcome after, (perform Workspace.files (renderAndSaveArgs "o.json")).run onePixelHome =
          (outcome, after) ∧
        outcome.status = 0 ∧ outcome.said = ["wrote o.json"] ∧
          ¬Delivers onePixelHome after ⟨"q.json", 16000000, .rowsDown⟩ "o.json" true := by
  refine ⟨by decide +kernel, _, _, Prod.mk.eta.symm, by decide +kernel, by decide +kernel, ?_⟩
  rintro ⟨_, _, raster, -, -, -, hpng, -⟩
  have hlost : pngAt ((perform Workspace.files (renderAndSaveArgs "o.json")).run onePixelHome).2
      (.ofString "o.json") = .error .notImage := by
    decide +kernel
  cases hlost.symm.trans hpng

end Command

end Quilt
