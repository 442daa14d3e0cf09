import Quilt.Command.Basic
import Quilt.Request.Basic
import Quilt.Text.Digits

namespace Quilt.Command

inductive Stop where
  | usage | help | version
deriving DecidableEq, Repr

inductive Action where
  | render | composite | animate | drift
deriving DecidableEq, Repr

inductive ValueOption where
  | input | maxPixels | layout | out | base | outDir | frames | seed
deriving DecidableEq, Repr

inductive Switch where
  | saveRequest | verbose | help | version
deriving DecidableEq, Repr

namespace Action

def all : List Action := [render, composite, animate, drift]

def name : Action → String
  | render => "render"
  | composite => "composite"
  | animate => "animate"
  | drift => "drift"

def valueOptions : Action → List ValueOption
  | render => [.input, .maxPixels, .layout, .out]
  | composite => [.input, .maxPixels, .layout, .base, .out]
  | animate => [.input, .maxPixels, .layout, .outDir, .frames]
  | drift => [.input, .maxPixels, .layout, .outDir, .frames, .seed]

def switches : Action → List Switch
  | render | drift => [.saveRequest, .verbose, .help]
  | composite | animate => [.verbose, .help]

end Action

namespace ValueOption

def name : ValueOption → String
  | input => "in"
  | maxPixels => "max-pixels"
  | layout => "layout"
  | out => "out"
  | base => "base"
  | outDir => "out-dir"
  | frames => "frames"
  | seed => "seed"

end ValueOption

namespace Switch

def name : Switch → String
  | saveRequest => "save-request"
  | verbose => "verbose"
  | help => "help"
  | version => "version"

def letter? : Switch → Option Char
  | saveRequest => none
  | verbose => some 'v'
  | help => some 'h'
  | version => some 'V'

end Switch

inductive Argument where
  | word (text : String)
  | long (name : String) (value : Option String)
  | letters (cluster : List Char)
  /-- Two dashes alone, after which all is words. -/
  | ending
deriving DecidableEq, Repr

namespace Argument

/-- A dash alone is a word. -/
def ofString (s : String) : Argument :=
  match s.toList with
  | ['-', '-'] => .ending
  | '-' :: '-' :: name =>
    let value := match name.dropWhile (· ≠ '=') with
      | [] => none
      | _ :: value => some (String.ofList value)
    .long (String.ofList (name.takeWhile (· ≠ '='))) value
  | '-' :: c :: cluster => .letters (c :: cluster)
  | _ => .word s

end Argument

/-- A number of frames. It is read with either sign, so minus zero is zero. -/
def readFrames (s : String) : Option Nat :=
  match s.toList with
  | '-' :: cs => do if (← Text.readDigits cs) = 0 then some 0 else none
  | cs => Text.readNatural UInt32.size cs

def readPath (s : String) : Option String := if s.isEmpty then none else some s

def readLayout : String → Option Layout
  | "rows-down" => some .rowsDown
  | "rows-across" => some .rowsAcross
  | _ => none

structure Settings where
  input : Option String := none
  maxPixels : Option Nat := none
  layout : Option Layout := none
  out : Option String := none
  base : Option String := none
  outDir : Option String := none
  frames : Option Nat := none
  seed : Option Nat := none
  saveRequest : Bool := false
  verbose : Bool := false
deriving DecidableEq, Repr

def settle {α : Type} (old new : Option α) : Except Stop (Option α) :=
  match old, new with
  | none, some a => .ok (some a)
  | _, _ => .error .usage

namespace Settings

def give (s : Settings) (o : ValueOption) (value : String) : Except Stop Settings :=
  match o with
  | .input => do return { s with input := ← settle s.input (readPath value) }
  | .maxPixels => do
    return { s with maxPixels := ← settle s.maxPixels (Text.readNatural UInt64.size value.toList) }
  | .layout => do return { s with layout := ← settle s.layout (readLayout value) }
  | .out => do return { s with out := ← settle s.out (readPath value) }
  | .base => do return { s with base := ← settle s.base (readPath value) }
  | .outDir => do return { s with outDir := ← settle s.outDir (readPath value) }
  | .frames => do return { s with frames := ← settle s.frames (readFrames value) }
  | .seed => do return { s with seed := ← settle s.seed (Text.readNatural UInt64.size value.toList) }

def turnOn (s : Settings) : Switch → Except Stop Settings
  | .saveRequest => if s.saveRequest then .error .usage else .ok { s with saveRequest := true }
  | .verbose => if s.verbose then .error .usage else .ok { s with verbose := true }
  | .help => .error .help
  | .version => .error .version

def turnOnAll (s : Settings) (switches : List Switch) (letters : List Char) :
    Except Stop Settings :=
  letters.foldlM (fun s c =>
    match switches.find? (·.letter? == some c) with
    | some switch => s.turnOn switch
    | none => .error .usage) s

end Settings

/-- A reader of arguments between two of them. -/
structure Reading where
  settings : Settings
  pending : Option ValueOption
  ended : Bool
deriving DecidableEq, Repr

namespace Reading

def start : Reading := ⟨{}, none, false⟩

def step (action : Action) (r : Reading) (arg : String) : Except Stop Reading := do
  if r.ended then throw .usage
  match r.pending, Argument.ofString arg with
  | some o, .word value => return { r with settings := ← r.settings.give o value, pending := none }
  | some _, _ => throw .usage
  | none, .word _ => throw .usage
  | none, .ending => return { r with ended := true }
  | none, .letters cluster =>
    return { r with settings := ← r.settings.turnOnAll action.switches cluster }
  | none, .long name value =>
    match action.valueOptions.find? (·.name == name), value with
    | some o, some value => return { r with settings := ← r.settings.give o value }
    | some o, none => return { r with pending := some o }
    | none, value =>
      match action.switches.find? (·.name == name), value with
      | some switch, none => return { r with settings := ← r.settings.turnOn switch }
      | _, _ => throw .usage

def finish (r : Reading) : Except Stop Settings :=
  if r.pending.isSome then .error .usage else .ok r.settings

end Reading

def required {α : Type} : Option α → Except Stop α
  | some a => .ok a
  | none => .error .usage

namespace Settings

def quiltOptions (s : Settings) : Except Stop QuiltOptions := do
  return ⟨← required s.input, s.maxPixels.getD 16000000, s.layout.getD .rowsDown⟩

def command (s : Settings) (action : Action) : Except Stop Command := do
  let opts ← s.quiltOptions
  match action with
  | .render => return .render opts (← required s.out) s.saveRequest
  | .composite => return .composite opts (← required s.base) (← required s.out)
  | .animate => return .animate opts (← required s.outDir) s.frames
  | .drift =>
    return .drift opts (← required s.outDir) (s.frames.getD Request.defaultFrames)
      (UInt64.ofNat (s.seed.getD 0)) s.saveRequest

end Settings

/-- Reads what follows the name of a command. The log goes into detail if that was asked for before
or after the name. -/
def ofActionArgs (verbose : Bool) (action : Action) (args : List String) :
    Except Stop Invocation := do
  let r ← args.foldlM (Reading.step action) Reading.start
  let settings ← r.finish
  return ⟨← settings.command action, verbose || settings.verbose⟩

def helpTopic : List String → Stop
  | [] => .help
  | [topic] => if topic = "help" ∨ topic ∈ Action.all.map Action.name then .help else .usage
  | _ => .usage

/-- Reads a command line from left to right. The first argument that is wrong, or that asks for help
or the version, decides. Only a few switches may stand before the name of the command. -/
def ofArgs (s : Settings) : List String → Except Stop Invocation
  | [] => .error .usage
  | arg :: rest =>
    let switches := [Switch.verbose, Switch.help, Switch.version]
    match Argument.ofString arg with
    | .word word =>
      match Action.all.find? (·.name == word) with
      | some action => ofActionArgs s.verbose action rest
      | none => .error (if word = "help" then helpTopic rest else .usage)
    | .ending => .error .usage
    | .letters cluster => do ofArgs (← s.turnOnAll switches cluster) rest
    | .long name value =>
      match switches.find? (·.name == name), value with
      | some switch, none => do ofArgs (← s.turnOn switch) rest
      | _, _ => .error .usage

end Quilt.Command
