import Quilt.Command.Arguments
import Quilt.Files.ImageSequence
import Quilt.Image.Decoders
import Quilt.Json.Scaling
import Quilt.Request.Drift
import Quilt.Request.Json

namespace Quilt

open Json (NumberReader)

namespace Command

/-- The course of a command over `m`: it logs what it writes, and may fail. -/
abbrev Course (m : Type → Type) := ExceptT Error (StateT (List LogEntry) m)

section Course
variable {m : Type → Type} [Monad m]

def onFile {α : Type} (task : String) (path : Path) (act : ExceptT FileFault m α) : Course m α :=
  ExceptT.mk (StateT.lift (act.adapt (FileFault.toError task path)).run)

/-- A sequence as a part of a command. What it has logged stays when it fails. -/
def onSequence {α : Type} (act : StateT ImageSequence m (Except Error α)) :
    Course m (α × ImageSequence) := do
  let (result, sequence) ← ExceptT.lift (StateT.lift (act.run .empty))
  modify (· ++ sequence.log)
  let a ← ExceptT.mk (pure result)
  return (a, sequence)

variable (files : Files m)

def readRequest [NumberReader] (input : String) : Course m Request := do
  let path := Path.ofString input
  let text ← onFile "open request" path (files.readText path)
  match Request.ofJson text with
  | .ok req => return req
  | .error e => throw (.reported .other ("parse request JSON: " ++ e.detail))

/-- Images are told by the extension of the file, then read and brought to a size. -/
def readBase [ImageLibrary] (base : String) (width height : Nat) : Course m Raster := do
  let path := Path.ofString base
  let image ← onFile "open base image" path <|
    match path.extension?.bind ImageFormat.ofExtension? with
    | some format => files.readImage format path
    | none => throw .notImage
  let resized := ImageLibrary.resize image width height
  ExceptT.mk (pure (Raster.ofBytes width height resized.bytes.toArray))

def writeOutput (out : Path) (raster : Raster) : Course m Unit := do
  onFile "create output dir" out.parent (files.makeDirs out.parent)
  onFile "write png" out (files.writeImage out raster)

def writeRequest (path : Path) (req : Request) : Course m Unit := do
  onFile "write request" path (files.writeText path req.toJson)
  modify (· ++ [.requestWritten path])

def course [NumberReader] [ImageLibrary] : Command → Course m String
  | .render opts out saveRequest => do
    let req ← readRequest files opts.input
    let raster ← ExceptT.mk (pure (req.render opts.render))
    let path := Path.ofString out
    writeOutput files path raster
    if saveRequest then writeRequest files (path.withExtension "json") req
    return s!"wrote {out}"
  | .composite opts base out => do
    let req ← readRequest files opts.input
    let compiled ← ExceptT.mk (pure (req.compile opts.render))
    let under ← readBase files base compiled.plan.width compiled.plan.height
    let raster ← ExceptT.mk (pure (compiled.plan.composite under compiled.initial))
    writeOutput files (Path.ofString out) raster
    return s!"wrote {out}"
  | .animate opts outDir frames? => do
    let req ← readRequest files opts.input
    let req := { req with numframes := frames?.or req.numframes }
    let sink := ImageSequence.sink files (Path.ofString outDir)
    let (_, sequence) ← onSequence (req.animate opts.render sink).run
    return s!"wrote {sequence.written} frames to {outDir}"
  | .drift opts outDir frames seed saveRequest => do
    let req ← readRequest files opts.input
    let dir := Path.ofString outDir
    let run := Request.renderDrift opts.render frames seed (ImageSequence.sink files dir)
    let drifted : StateT ImageSequence m (Except Error Request) := do
      let (result, req) ← run.run.run req
      return result.map fun _ => req
    let (req, sequence) ← onSequence drifted
    if saveRequest then writeRequest files (dir.join "request.json") req
    return s!"wrote {sequence.written} frames to {outDir}"

end Course

end Command

structure Outcome where
  status : Nat
  printed : String
  log : List LogEntry
  error : Option Error
  said : List String
deriving DecidableEq, Repr

namespace Outcome

def success (log : List LogEntry) (notice : String) : Outcome := ⟨0, "", log, none, [notice]⟩

def failure (log : List LogEntry) (e : Error) : Outcome := ⟨1, "", log, some e, ["request failed"]⟩

def answer (text : String) : Outcome := ⟨0, text, [], none, []⟩

def misuse : Outcome := ⟨2, "", [], none, []⟩

def errorText (e : Error) : String := "ERROR " ++ e.message ++ " kind=\"" ++ e.kind.name ++ "\""

/-- All that is reported on the side, in order. -/
def report (o : Outcome) : List String :=
  o.log.map LogEntry.text ++ o.error.toList.map errorText ++ o.said

end Outcome

namespace Command

def versionText : String := "fraquilt 0.1.0\n"

def ofStop : Stop → Outcome
  | .usage => .misuse
  | .help => .answer ""
  | .version => .answer versionText

def perform [NumberReader] [ImageLibrary] {m : Type → Type} [Monad m] (files : Files m)
    (args : List String) : m Outcome :=
  match ofArgs {} args with
  | .error stop => return ofStop stop
  | .ok invocation => do
    let (result, log) ← ((course files invocation.command).run.run [] : m _)
    let shown := log.filter fun entry => invocation.verbose || !entry.isDetail
    return match result with
      | .ok notice => .success shown notice
      | .error e => .failure shown e

end Command

end Quilt
