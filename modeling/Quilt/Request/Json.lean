import Quilt.Json.Printer
import Quilt.Request.Basic

namespace Quilt

open Json (Value Numeral NumberReader)

/-- How deep an initial color may be nested in itself. A text may be nested 127 deep, and a color
stands in the list of colors of the request. -/
def colorDepth : Nat := 125

section Reading
variable [NumberReader]

namespace ColorSpec

/-- An array of numbers, else an object with one member each for red, green and blue. -/
def ofValue? (v : Value) : Option ColorSpec :=
  if !v.decodes colorDepth then none
  else
    match v with
    | .array _ => (Value.list? Value.float? v).map triple
    | .object members => do
      let [red] := Value.valuesAt "r" members | none
      let [green] := Value.valuesAt "g" members | none
      let [blue] := Value.valuesAt "b" members | none
      return named (← red.float?) (← green.float?) (← blue.float?)
    | _ => none

end ColorSpec

namespace Functions

/-- Formulas if the innermost values are strings. An array that holds neither strings nor numbers
is an empty grid of formulas. -/
def ofValue? (v : Value) : Option Functions :=
  ((Value.list? (Value.list? (Value.list? (Value.list? Value.string?))) v).map expressions).or
    ((Value.list? (Value.list? (Value.list? (Value.nat? UInt64.size))) v).map permutations)

end Functions

namespace Request

def framesOfValue? : Value → Option (Option Nat)
  | .null => some none
  | v => (v.nat? UInt32.size).map some

def ofParts? (iterations colors functions : Value) (numframes : Option Value) : Option Request := do
  let iterations ← iterations.nat? UInt32.size
  let colors ← Value.list? ColorSpec.ofValue? colors
  let functions ← Functions.ofValue? functions
  let numframes ← (numframes.map framesOfValue?).getD (some none)
  return ⟨iterations, colors, functions, numframes⟩

/-- The members in any order, or their values in the order of the fields. Other members are ignored,
but a key must decode and a field must not be given twice. -/
def ofValue? : Value → Option Request
  | .array [iterations, colors, functions] => ofParts? iterations colors functions none
  | .array [iterations, colors, functions, numframes] =>
    ofParts? iterations colors functions (some numframes)
  | .object members => do
    if members.any fun (k, _) => k.isNone then none
    let [iterations] := Value.valuesAt "iterations" members | none
    let [colors] := Value.valuesAt "colors" members | none
    let [functions] := Value.valuesAt "functions" members | none
    match Value.valuesAt "numframes" members with
    | [] => ofParts? iterations colors functions none
    | [numframes] => ofParts? iterations colors functions (some numframes)
    | _ => none
  | _ => none

def ofJson (text : String) : Except Error Request :=
  match (Value.parse? text).bind ofValue? with
  | some req => .ok req
  | none => .error .requestSyntax

end Request

end Reading

/-- A number that is no finite double is written as null. -/
def channelValue (x : Float) : Value :=
  if Binary64.isFinite x then .number (Numeral.ofFloat x) else .null

def natValue (n : Nat) : Value := .number (Numeral.ofNat n)

def textValue (s : String) : Value := .string (some s)

namespace ColorSpec

def toValue : ColorSpec → Value
  | triple channels => .array (channels.map channelValue)
  | named red green blue =>
    .object [(some "r", channelValue red), (some "g", channelValue green),
      (some "b", channelValue blue)]

end ColorSpec

namespace Functions

def nested {α : Type} (item : α → Value) (items : List α) : Value := .array (items.map item)

def toValue : Functions → Value
  | expressions rows => nested (nested (nested (nested textValue))) rows
  | permutations rows => nested (nested (nested natValue)) rows

end Functions

namespace Request

def toValue (req : Request) : Value :=
  .object <|
    [(some "iterations", natValue req.iterations),
      (some "colors", .array (req.colors.map ColorSpec.toValue)),
      (some "functions", req.functions.toValue)] ++
    match req.numframes with
    | some n => [(some "numframes", natValue n)]
    | none => []

def toJson (req : Request) : String := req.toValue.pretty

end Request

end Quilt
