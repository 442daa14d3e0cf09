import Mathlib
import Quilt.Command.Run
import Quilt.Files.Workspace
import Quilt.Proofs.DriftProtocol
import Quilt.Proofs.Validity

namespace Quilt

open Json (NumberReader)

namespace Request
variable {req : Request} {opts : RenderOptions} {compiled : CompiledRequest} {e : Error}

/-- How a request is refused: with the same error everywhere, except that a drifting sequence looks
at the size first, and before any sink is told anything. -/
structure RefusedWith (req : Request) (opts : RenderOptions) (e : Error) : Prop where
  render_eq : req.render opts = .error e
  composite_eq : ∀ base, req.composite opts base = .error e
  animate_eq : ∀ {σ : Type} (sink : FrameSink (StateM σ)) (st : σ),
    (req.animate opts sink.recorded).run.run ([], st) = (.error e, [], st)
  drift_eq : ∃ e', ∀ {σ : Type} (sink : FrameSink (StateM σ)) (count : ℕ) (seed : UInt64) (st : σ),
    ((renderDrift opts count seed sink.recorded).run.run req).run ([], st) =
      ((.error e', req), [], st)

theorem animate_of_compile_error {m : Type → Type} [Monad m] [LawfulMonad m]
    (h : req.compile opts = .error e) (sink : FrameSink m) : req.animate opts sink = throw e :=
  check_bind_error h _

theorem refusedWith_of_compile (h : req.compile opts = .error e) : req.RefusedWith opts e := by
  refine ⟨?_, fun base => ?_, fun sink st => ?_, ?_⟩
  · rw [render, h]
    rfl
  · rw [composite, h]
    rfl
  · rw [animate_of_compile_error h]
    rfl
  · refine ⟨req.driftRefusal opts e, fun sink count seed st => ?_⟩
    rw [run_renderDrift_of_compile_error h]
    rfl

theorem compile_error_of_numframes (h : req.compile opts = .error e) (numframes : Option ℕ) :
    ({ req with numframes := numframes } : Request).compile opts = .error e :=
  compile_eq_error.2 ((compile_eq_error : req.compile opts = .error e ↔ _).1 h)

end Request

namespace Command

def options : Command → QuiltOptions
  | render opts .. => opts
  | composite opts .. => opts
  | animate opts .. => opts
  | drift opts .. => opts

section Course
variable {m : Type → Type} [Monad m] [LawfulMonad m]

theorem onSequence_error_bind {α β : Type} (e : Error) (next : α × ImageSequence → Course m β) :
    (onSequence (pure (.error e)) >>= next) = throw e := by
  have hthrow : (onSequence (pure (.error e)) : Course m (α × ImageSequence)) = throw e := by
    apply ExceptT.ext
    apply StateT.ext
    intro log
    simp [onSequence, ExceptT.run_bind, ImageSequence.empty, run_modify]
  rw [hthrow]
  exact check_bind_error rfl next

section Reading
variable [NumberReader]

/-- What is made of a text that has been read, or of the fault of its file. -/
def requestOf (path : Path) : Except FileFault String → Except Error Request
  | .ok text => (Request.ofJson text).mapError fun e =>
      .reported .other ("parse request JSON: " ++ e.detail)
  | .error fault => .error (fault.toError "open request" path)

theorem run_readRequest (files : Files m) (input : String) (log : List LogEntry) :
    (readRequest files input).run.run log =
      (files.readText (.ofString input)).run >>= fun read =>
        pure (requestOf (.ofString input) read, log) := by
  simp only [readRequest, onFile, ExceptT.run_bind, StateT.run_bind, ExceptT.run_mk,
    StateT.run_lift, ExceptT.run_adapt, map_eq_pure_bind, bind_assoc, pure_bind]
  refine bind_congr fun read => ?_
  cases read with
  | error fault => rfl
  | ok text =>
    dsimp only [Except.mapError, requestOf]
    cases Request.ofJson text <;> rfl

theorem exists_course_eq_bind [ImageLibrary] (files : Files m) (command : Command) :
    ∃ rest : Request → Course m String,
      course files command = readRequest files command.options.input >>= rest ∧
        ∀ req e, req.compile command.options.render = .error e → ∃ e', rest req = throw e' := by
  cases command with
  | render opts out saveRequest =>
    refine ⟨_, rfl, fun req e h => ⟨e, ?_⟩⟩
    exact check_bind_error (Request.refusedWith_of_compile h).render_eq _
  | composite opts base out =>
    refine ⟨_, rfl, fun req e h => ⟨e, ?_⟩⟩
    exact check_bind_error h _
  | animate opts outDir frames =>
    refine ⟨_, rfl, fun req e h => ⟨e, ?_⟩⟩
    -- The number of frames is set after the request was read, and before it is compiled.
    have hcompile : ({ req with numframes := frames.or req.numframes } : Request).compile
        opts.render = .error e := Request.compile_error_of_numframes h _
    dsimp only
    rw [Request.animate_of_compile_error hcompile]
    exact onSequence_error_bind e _
  | drift opts outDir frames seed saveRequest =>
    refine ⟨_, rfl, fun req e h => ⟨req.driftRefusal opts.render e, ?_⟩⟩
    let sink := ImageSequence.sink files (Path.ofString outDir)
    have hdrift : (Request.renderDrift opts.render frames seed sink).run.run req =
        pure (.error (req.driftRefusal opts.render e), req) :=
      Request.run_renderDrift_of_compile_error h sink frames seed
    dsimp only
    rw [hdrift, pure_bind]
    exact onSequence_error_bind _ _

end Reading

end Course

section Files
variable {w : Workspace} {opts : QuiltOptions}

/-- The text at the end of a path. -/
def textAt (w : Workspace) (path : Path) : Except FileFault String :=
  match w.read path with
  | .ok (.text text) => .ok text
  | .ok _ => .error .notText
  | .error fault => .error fault

theorem run_readText [ImageLibrary] (w : Workspace) (path : Path) :
    (Workspace.files.readText path).run.run w = (textAt w path, w) := by
  unfold textAt
  change (match w.read path with
    | .ok (.text content) => (pure content : ExceptT FileFault (StateM Workspace) String)
    | .ok _ => throw FileFault.notText
    | .error fault => throw fault).run.run w = _
  split <;> rfl

section Reading
variable [NumberReader]

/-- The file that a command is told to read holds no request that compiles. -/
inductive LacksRequest (w : Workspace) (opts : QuiltOptions) : Prop
  | unreadable {fault : FileFault} (hread : w.read (.ofString opts.input) = .error fault)
  | notText {entry : Entry} (hread : w.read (.ofString opts.input) = .ok entry)
      (h : ∀ text, entry ≠ .text text)
  | malformed {text : String} {e : Error}
      (hread : w.read (.ofString opts.input) = .ok (.text text))
      (h : Request.ofJson text = .error e)
  | refused {text : String} {req : Request} {e : Error}
      (hread : w.read (.ofString opts.input) = .ok (.text text))
      (hparse : Request.ofJson text = .ok req) (h : req.compile opts.render = .error e)

theorem requestOf_textAt (h : LacksRequest w opts) :
    (∃ e, requestOf (.ofString opts.input) (textAt w (.ofString opts.input)) = .error e) ∨
      ∃ req e, requestOf (.ofString opts.input) (textAt w (.ofString opts.input)) = .ok req ∧
        req.compile opts.render = .error e := by
  unfold textAt
  cases h with
  | unreadable hread =>
    rw [hread]
    exact .inl ⟨_, rfl⟩
  | @notText entry hread h =>
    rw [hread]
    cases entry with
    | text text => exact absurd rfl (h text)
    | directory => exact .inl ⟨_, rfl⟩
    | image raster => exact .inl ⟨_, rfl⟩
  | malformed hread h =>
    rw [hread]
    dsimp only [requestOf]
    rw [h]
    exact .inl ⟨_, rfl⟩
  | refused hread hparse h =>
    rw [hread]
    dsimp only [requestOf]
    rw [hparse]
    exact .inr ⟨_, _, rfl, h⟩

theorem run_course_of_lacksRequest [ImageLibrary] {command : Command}
    (h : LacksRequest w command.options) :
    ∃ e, ((course Workspace.files command).run.run []).run w = ((.error e, []), w) := by
  obtain ⟨rest, hcourse, hrest⟩ := exists_course_eq_bind Workspace.files command
  have hread : ((readRequest Workspace.files command.options.input).run.run []).run w =
      ((requestOf (.ofString command.options.input)
        (textAt w (.ofString command.options.input)), []), w) := by
    rw [run_readRequest, StateT.run_bind, run_readText]
    rfl
  rw [hcourse]
  obtain ⟨e, he⟩ | ⟨req, e, hreq, hcompile⟩ := requestOf_textAt h
  · rw [he] at hread
    refine ⟨e, ?_⟩
    simp only [ExceptT.run_bind, StateT.run_bind, hread]
    rfl
  · rw [hreq] at hread
    obtain ⟨e', hthrow⟩ := hrest req e hcompile
    refine ⟨e', ?_⟩
    simp only [ExceptT.run_bind, StateT.run_bind, hread]
    change ((rest req).run.run []).run w = _
    rw [hthrow]
    rfl

theorem perform_of_lacksRequest [ImageLibrary] {args : List String} {invocation : Invocation}
    (hargs : ofArgs {} args = .ok invocation) (h : LacksRequest w invocation.command.options) :
    ∃ e, (perform Workspace.files args).run w = (.failure [] e, w) := by
  obtain ⟨e, hrun⟩ := run_course_of_lacksRequest h
  refine ⟨e, ?_⟩
  rw [perform, hargs]
  simp only [StateT.run_bind, hrun]
  rfl

end Reading

end Files

end Command

/-- Failures come before effects. A request that does not compile is refused with the error that it
fails with, and one that compiles is rendered. A command whose file holds no request that compiles
exits with status 1, has no notice but that of its failure, and leaves all files and directories as
they are. -/
theorem refused_before_effects [NumberReader] [ImageLibrary] :
    (∀ (req : Request) opts e, req.compile opts = .error e → req.RefusedWith opts e) ∧
    (∀ (req : Request) opts compiled, req.compile opts = .ok compiled →
      ∃ frame, req.render opts = .ok frame) ∧
    ∀ args invocation w, Command.ofArgs {} args = .ok invocation →
      Command.LacksRequest w invocation.command.options → ∃ e,
        (Command.perform Workspace.files args).run w =
          (⟨1, "", [], some e, ["request failed"]⟩, w) := by
  refine ⟨fun req opts e h => Request.refusedWith_of_compile h, fun req opts compiled h => ?_,
    fun args invocation w hargs h => Command.perform_of_lacksRequest hargs h⟩
  obtain ⟨frame, hframe, -⟩ := Request.exists_render_of_compile h
  exact ⟨frame, hframe⟩

theorem refused_before_effects_missing :
    Request.RefusedWith ⟨1, [], .permutations [], none⟩ {} .requestNoColors ∧
      (∃ frame, Request.twoFormulaCells.render {} = .ok frame) ∧
      ∃ e, (Command.perform Workspace.files
        ["drift", "--in", "quilt.json", "--out-dir", "frames"]).run (.empty ["home"]) =
          (⟨1, "", [], some e, ["request failed"]⟩, .empty ["home"]) := by
  obtain ⟨hrefused, hrenders, hcommands⟩ := refused_before_effects
  have hcolorless : (⟨1, [], .permutations [], none⟩ : Request).compile {} =
      .error .requestNoColors := rfl
  have hargs : Command.ofArgs {} ["drift", "--in", "quilt.json", "--out-dir", "frames"] =
      .ok ⟨.drift ⟨"quilt.json", 16000000, .rowsDown⟩ "frames" 10 0 false, false⟩ := by
    decide +kernel
  have hread : (Workspace.empty ["home"]).read (.ofString "quilt.json") = .error .missing := by
    decide +kernel
  exact ⟨hrefused _ _ _ hcolorless, hrenders _ _ _ Request.compile_twoFormulaCells,
    hcommands _ _ _ hargs (.unreadable hread)⟩

end Quilt
