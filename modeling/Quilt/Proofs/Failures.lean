import Mathlib
import Quilt.Proofs.ImageSequence
import Quilt.Proofs.Refusal
import Quilt.Proofs.Script

namespace Quilt

open Json (NumberReader)

/-- Whether a check fails for no internal reason, if it fails. -/
def NoInternal {α : Type} (check : Except Error α) : Prop :=
  ∀ e, check = .error e → e.kind ≠ .internal

namespace NoInternal
variable {α β : Type} {check : Except Error α} {next : α → Except Error β}

theorem ok (a : α) : NoInternal (.ok a) := fun _ h => nomatch h

theorem error {e : Error} (he : e.kind ≠ .internal) : NoInternal (.error e : Except Error α) :=
  fun _ h => Except.error.inj h ▸ he

theorem bind (h : NoInternal check) (hnext : ∀ a, NoInternal (next a)) :
    NoInternal (check >>= next) := by
  intro e he
  obtain hcheck | ⟨a, -, ha⟩ := bind_eq_error.1 he
  · exact h e hcheck
  · exact hnext a e ha

theorem mapM {f : α → Except Error β} (h : ∀ a, NoInternal (f a)) (as : List α) :
    NoInternal (as.mapM f) := by
  intro e he
  obtain ⟨-, a, -, ha, -⟩ := mapM_eq_error.1 he
  exact h a e ha

end NoInternal

theorem Raster.noInternal_ofBytes (width height : ℕ) (data : Array UInt8) :
    NoInternal (ofBytes width height data) := by
  rw [ofBytes]
  dsimp only
  split_ifs
  · exact .error (by decide)
  · exact .error (show ErrorKind.shape ≠ .internal by decide)
  · exact .ok _

namespace Grid

theorem noInternal_rectangle {α : Type} (lines : List (List α)) : NoInternal (rectangle lines) := by
  unfold rectangle
  split
  · exact .error (by decide)
  · split_ifs
    · exact .error (by decide)
    · split
      · exact .error nofun
      · exact .ok _

theorem noInternal_compileCells {α : Type} {compileAt : ℕ → ℕ → α → Except Error Cell}
    (h : ∀ row col item, NoInternal (compileAt row col item)) (lines : List (List α)) :
    NoInternal (compileCells compileAt lines) :=
  (NoInternal.mapM (fun _ => .mapM (fun _ => h _ _ _) _) _).bind fun _ => .ok _

theorem noInternal_compileChannel (numcolors row col color channel : ℕ) (source : String) :
    NoInternal (compileChannel numcolors row col color channel source) := by
  unfold compileChannel
  cases Formula.compile numcolors source with
  | error e => exact .error nofun
  | ok formula => exact .ok _

theorem noInternal_compileCell (numcolors row col : ℕ) (colors : List (List String)) :
    NoInternal (compileCell numcolors row col colors) := by
  have hcolor : ∀ color channels, NoInternal (compileColor numcolors row col color channels) := by
    intro color channels
    have hchannel := noInternal_compileChannel numcolors row col color
    unfold compileColor
    split
    · exact (hchannel 0 _).bind fun _ => (hchannel 1 _).bind fun _ =>
        (hchannel 2 _).bind fun _ => .ok _
    · exact .error nofun
  unfold compileCell
  split_ifs
  · exact .error nofun
  · exact (NoInternal.mapM (fun _ => hcolor _ _) _).bind fun _ => .ok _

theorem noInternal_compileSelection (numcolors row col : ℕ) (slots : List ℕ) :
    NoInternal (compileSelection numcolors row col slots) := by
  unfold compileSelection
  split_ifs
  · exact .error nofun
  · split
    · exact .error nofun
    · exact .ok _

theorem noInternal_compile (numcolors : ℕ) (functions : Functions) :
    NoInternal (compile numcolors functions) := by
  have hcount : NoInternal (Cell.checkColorCount numcolors) := by
    unfold Cell.checkColorCount
    split_ifs
    · exact .error nofun
    · exact .ok _
  cases functions with
  | expressions lines =>
    exact hcount.bind fun _ => (noInternal_rectangle lines).bind fun _ =>
      (noInternal_compileCells (noInternal_compileCell numcolors) lines).bind fun _ => .ok _
  | permutations lines =>
    exact hcount.bind fun _ => (noInternal_rectangle lines).bind fun _ =>
      (noInternal_compileCells (noInternal_compileSelection numcolors) lines).bind fun _ => .ok _

end Grid

theorem noInternal_rasterSize (rows cols depth : ℕ) (opts : RenderOptions) :
    NoInternal (rasterSize rows cols depth opts) := by
  intro e he
  obtain ⟨-, rfl⟩ | ⟨-, -, rfl⟩ := rasterSize_eq_error.1 he <;> exact nofun

namespace Request
variable {opts : RenderOptions}

theorem noInternal_compile (req : Request) (opts : RenderOptions) :
    NoInternal (req.compile opts) := by
  intro e he
  cases firstFault_of_compile he with
  | noColors => exact nofun
  | tooManyColors => exact nofun
  | color =>
    unfold ColorSpec.fault
    split_ifs <;> exact nofun
  | grid _ _ _ hgrid => exact Grid.noInternal_compile _ _ e hgrid
  | depth => exact nofun
  | pixels => exact nofun

theorem noInternal_render (req : Request) (opts : RenderOptions) : NoInternal (req.render opts) := by
  intro e he
  cases hcompile : req.compile opts with
  | error e' =>
    cases (refusedWith_of_compile hcompile).render_eq.symm.trans he
    exact noInternal_compile req opts e hcompile
  | ok compiled =>
    obtain ⟨frame, hframe, -⟩ := exists_render_of_compile hcompile
    cases hframe.symm.trans he

theorem noInternal_driftRefusal (req : Request) (opts : RenderOptions) {e : Error}
    (he : e.kind ≠ .internal) : (req.driftRefusal opts e).kind ≠ .internal := by
  unfold driftRefusal
  split
  next hsize => exact noInternal_rasterSize _ _ _ _ _ hsize
  next => exact he

end Request

namespace Command
variable {τ α β : Type}

/-- Whether a part of a command fails for no internal reason, wherever it is run. -/
def FailsOutside {σ : Type} (part : ExceptT Error (StateT σ (StateM τ)) α) : Prop :=
  ∀ s t, NoInternal ((part.run.run s).run t).1.1

namespace FailsOutside
variable {σ : Type} {part : ExceptT Error (StateT σ (StateM τ)) α}
  {next : α → ExceptT Error (StateT σ (StateM τ)) β}

theorem bind (h : FailsOutside part) (hnext : ∀ a, FailsOutside (next a)) :
    FailsOutside (part >>= next) := by
  intro s t
  rcases hpart : (part.run.run s).run t with ⟨⟨e | a, s'⟩, t'⟩
  · rw [run_bind_of_error hpart]
    have hs := h s t
    rw [hpart] at hs
    exact .error (hs e rfl)
  · rw [run_bind_of_ok hpart]
    exact hnext a s' t'

theorem pure (a : α) : FailsOutside (pure a : ExceptT Error (StateT σ (StateM τ)) α) :=
  fun _ _ => .ok a

theorem modify (f : σ → σ) :
    FailsOutside (modify f : ExceptT Error (StateT σ (StateM τ)) Unit) :=
  fun _ _ => .ok ()

theorem check {check : Except Error α} (h : NoInternal check) :
    FailsOutside (ExceptT.mk (Pure.pure check) : ExceptT Error (StateT σ (StateM τ)) α) :=
  fun _ _ => h

end FailsOutside

theorem run_onSequence {act : StateT ImageSequence (StateM τ) (Except Error α)}
    {result : Except Error α} {sequence : ImageSequence} {t t' : τ}
    (h : (act.run .empty).run t = ((result, sequence), t')) (log : List LogEntry) :
    ((onSequence act).run.run log).run t =
      ((result.map fun a => (a, sequence), log ++ sequence.log), t') := by
  have hlift : ((ExceptT.lift (StateT.lift (act.run .empty)) :
      Course (StateM τ) (Except Error α × ImageSequence)).run.run log).run t =
        ((.ok (result, sequence), log), t') := by
    change ((Except.ok ((act.run .empty).run t).1, log), ((act.run .empty).run t).2) = _
    rw [h]
  rw [onSequence, run_bind_of_ok hlift]
  cases result <;> rfl

variable (files : Files (StateM τ))

theorem failsOutside_onFile (task : String) (path : Path) (act : ExceptT FileFault (StateM τ) α) :
    FailsOutside (onFile task path act) := by
  intro log t
  change NoInternal ((act.run.run t).1.mapError (FileFault.toError task path))
  cases (act.run.run t).1 with
  | error fault => exact .error nofun
  | ok a => exact .ok a

theorem failsOutside_readRequest [NumberReader] (input : String) :
    FailsOutside (readRequest files input) := by
  refine (failsOutside_onFile _ _ _).bind fun text => ?_
  cases Request.ofJson text with
  | error e => exact fun _ _ => .error nofun
  | ok req => exact .pure req

theorem failsOutside_readBase [ImageLibrary] (base : String) (width height : ℕ) :
    FailsOutside (readBase files base width height) :=
  (failsOutside_onFile _ _ _).bind fun _ => .check (Raster.noInternal_ofBytes _ _ _)

theorem failsOutside_writeOutput (out : Path) (raster : Raster) :
    FailsOutside (writeOutput files out raster) :=
  (failsOutside_onFile _ _ _).bind fun _ => failsOutside_onFile _ _ _

theorem failsOutside_writeRequest (path : Path) (req : Request) :
    FailsOutside (writeRequest files path req) :=
  (failsOutside_onFile _ _ _).bind fun _ => .modify _

theorem failsOutside_onSequence {act : ExceptT Error (StateT ImageSequence (StateM τ)) α}
    (h : FailsOutside act) : FailsOutside (onSequence act.run) := by
  intro log t
  have hact := h .empty t
  rcases hrun : (act.run.run .empty).run t with ⟨⟨result, sequence⟩, t'⟩
  rw [hrun] at hact
  rw [run_onSequence hrun]
  cases result with
  | error e => exact .error (hact e rfl)
  | ok a => exact .ok _

theorem failsOutside_sequence (dir : Path) (width height : ℕ) (frames : ℕ → Raster) (count : ℕ) :
    FailsOutside (forM (SinkCall.sequence width height frames count)
      (ImageSequence.sink files dir)) := by
  intro s t
  obtain ⟨result, s', t', hrun, ⟨rfl, -⟩ | ⟨detail, rfl⟩⟩ :=
    ImageSequence.run_sequence files dir width height frames count s t
  · rw [hrun]
    exact .ok ()
  · rw [hrun]
    exact .error nofun

theorem failsOutside_animate (req : Request) (opts : RenderOptions) (dir : Path) :
    FailsOutside (req.animate opts (ImageSequence.sink files dir)) := by
  cases hcompile : req.compile opts with
  | error e =>
    rw [Request.animate_of_compile_error hcompile]
    exact fun _ _ => .error (Request.noInternal_compile req opts e hcompile)
  | ok compiled =>
    rw [Request.animate_eq_forM hcompile]
    exact failsOutside_sequence files dir _ _ _ _

theorem failsOutside_renderDrift (req : Request) (opts : RenderOptions) (count : ℕ) (seed : UInt64)
    (dir : Path) : FailsOutside (Request.leaving
      (Request.renderDrift opts count seed (ImageSequence.sink files dir)) req) := by
  cases hcompile : req.compile opts with
  | error e =>
    have hdrift := Request.run_renderDrift_of_compile_error hcompile
      (ImageSequence.sink files dir) count seed
    rw [Request.leaving, hdrift]
    exact fun _ _ => .error (Request.noInternal_driftRefusal req opts
      (Request.noInternal_compile req opts e hcompile))
  | ok compiled =>
    choose frames hframes _ using fun k =>
      Request.exists_render_drifted hcompile (.ofSeed seed) (k + 1)
    rw [Request.leaving_renderDrift hcompile hframes]
    exact (failsOutside_sequence files dir _ _ _ _).bind fun _ => .pure _

/-- Saves a request on demand. -/
def saveIf (saveRequest : Bool) (path : Path) (req : Request) : Course (StateM τ) Unit :=
  if saveRequest then writeRequest files path req else pure ()

theorem failsOutside_saveIf (saveRequest : Bool) (path : Path) (req : Request) :
    FailsOutside (saveIf files saveRequest path req) := by
  unfold saveIf
  split_ifs
  · exact failsOutside_writeRequest files path req
  · exact .pure ()

section Libraries
variable [NumberReader] [ImageLibrary]

theorem course_render (opts : QuiltOptions) (out : String) (saveRequest : Bool) :
    course files (.render opts out saveRequest) =
      (readRequest files opts.input >>= fun req =>
        ExceptT.mk (pure (req.render opts.render)) >>= fun raster =>
          writeOutput files (.ofString out) raster >>= fun _ =>
            saveIf files saveRequest ((Path.ofString out).withExtension "json") req >>= fun _ =>
              pure s!"wrote {out}") := by
  cases saveRequest <;> rfl

theorem course_composite (opts : QuiltOptions) (base out : String) :
    course files (.composite opts base out) =
      (readRequest files opts.input >>= fun req =>
        ExceptT.mk (pure (req.compile opts.render)) >>= fun compiled =>
          readBase files base compiled.plan.width compiled.plan.height >>= fun under =>
            ExceptT.mk (pure (compiled.plan.composite under compiled.initial)) >>= fun raster =>
              writeOutput files (.ofString out) raster >>= fun _ => pure s!"wrote {out}") :=
  rfl

theorem course_animate (opts : QuiltOptions) (outDir : String) (frames : Option ℕ) :
    course files (.animate opts outDir frames) =
      (readRequest files opts.input >>= fun req =>
        onSequence (({ req with numframes := frames.or req.numframes } : Request).animate
          opts.render (ImageSequence.sink files (.ofString outDir))).run >>= fun done =>
            pure s!"wrote {done.2.written} frames to {outDir}") :=
  rfl

theorem course_drift (opts : QuiltOptions) (outDir : String) (frames : ℕ) (seed : UInt64)
    (saveRequest : Bool) : course files (.drift opts outDir frames seed saveRequest) =
      (readRequest files opts.input >>= fun req =>
        onSequence (Request.leaving (Request.renderDrift opts.render frames seed
          (ImageSequence.sink files (.ofString outDir))) req).run >>= fun done =>
            saveIf files saveRequest ((Path.ofString outDir).join "request.json") done.1 >>=
              fun _ => pure s!"wrote {done.2.written} frames to {outDir}") := by
  cases saveRequest <;> rfl

theorem failsOutside_course (command : Command) : FailsOutside (course files command) := by
  cases command with
  | render opts out saveRequest =>
    rw [course_render]
    exact (failsOutside_readRequest files _).bind fun req =>
      (FailsOutside.check (req.noInternal_render _)).bind fun raster =>
        (failsOutside_writeOutput files _ raster).bind fun _ =>
          (failsOutside_saveIf files _ _ _).bind fun _ => .pure _
  | composite opts base out =>
    rw [course_composite]
    exact (failsOutside_readRequest files _).bind fun req =>
      (FailsOutside.check (req.noInternal_compile _)).bind fun compiled =>
        (failsOutside_readBase files _ _ _).bind fun under =>
          (FailsOutside.check fun e he => by rw [Plan.kind_of_composite he]; decide).bind
            fun raster => (failsOutside_writeOutput files _ raster).bind fun _ => .pure _
  | animate opts outDir frames =>
    rw [course_animate]
    exact (failsOutside_readRequest files _).bind fun req =>
      (failsOutside_onSequence (failsOutside_animate files _ _ _)).bind fun _ => .pure _
  | drift opts outDir frames seed saveRequest =>
    rw [course_drift]
    exact (failsOutside_readRequest files _).bind fun req =>
      (failsOutside_onSequence (failsOutside_renderDrift files _ _ _ _ _)).bind fun _ =>
        (failsOutside_saveIf files _ _ _).bind fun _ => .pure _

/-- No run of the program ends with an internal error, whatever its files do. -/
theorem kind_ne_internal_of_perform {args : List String} {t : τ} {e : Error}
    (h : ((perform files args).run t).1.error = some e) : e.kind ≠ .internal := by
  cases hargs : ofArgs {} args with
  | error stop =>
    rw [perform, hargs] at h
    cases stop <;> cases h
  | ok invocation =>
    have hfails := failsOutside_course files invocation.command [] t
    rw [perform, hargs] at h
    rcases hcourse : ((course files invocation.command).run.run []).run t with
      ⟨⟨result, log⟩, t'⟩
    rw [hcourse] at hfails
    simp only [StateT.run_bind, hcourse] at h
    cases result with
    | error e' =>
      obtain rfl : e' = e := Option.some.inj h
      exact hfails e' rfl
    | ok notice => cases h

end Libraries

end Command

end Quilt
