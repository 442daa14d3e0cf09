import Quilt.Json.NumberReader
import Quilt.Json.Token

namespace Quilt.Json

/-- A key or a string is `none` if it holds half a surrogate pair. -/
inductive Value where
  | null
  | bool (value : Bool)
  | number (n : Numeral)
  | string (value : Option String)
  | array (items : List Value)
  | object (members : List (Option String × Value))

/-- An array or object that is still open, with what it holds so far in reverse. -/
inductive Open where
  | array (items : List Value)
  | object (members : List (Option String × Value)) (key : Option String)

inductive Reading where
  | value (stack : List Open)
  | arrayStart (stack : List Open)
  | objectStart (stack : List Open)
  | key (stack : List Open) (members : List (Option String × Value))
  | colon (stack : List Open) (members : List (Option String × Value)) (key : Option String)
  | after (stack : List Open) (value : Value)

namespace Reading

def startValue (stack : List Open) : Token → Option Reading
  | .null => some (after stack .null)
  | .bool b => some (after stack (.bool b))
  | .number n => some (after stack (.number n))
  | .string s => some (after stack (.string s))
  | .openArray => some (arrayStart stack)
  | .openObject => some (objectStart stack)
  | _ => none

def step : Reading → Token → Option Reading
  | value stack, t => startValue stack t
  | arrayStart stack, .closeArray => some (after stack (.array []))
  | arrayStart stack, t => startValue (.array [] :: stack) t
  | objectStart stack, .closeObject => some (after stack (.object []))
  | objectStart stack, .string k => some (colon stack [] k)
  | key stack members, .string k => some (colon stack members k)
  | colon stack members k, .colon => some (value (.object members k :: stack))
  | after (.array items :: stack) v, .comma => some (value (.array (v :: items) :: stack))
  | after (.array items :: stack) v, .closeArray =>
    some (after stack (.array (v :: items).reverse))
  | after (.object members k :: stack) v, .comma => some (key stack ((k, v) :: members))
  | after (.object members k :: stack) v, .closeObject =>
    some (after stack (.object ((k, v) :: members).reverse))
  | _, _ => none

def result? : Reading → Option Value
  | after [] v => some v
  | _ => none

end Reading

namespace Value

def ofTokens? (ts : List Token) : Option Value := do
  let reading ← ts.foldlM Reading.step (.value [])
  reading.result?

def parse? (text : String) : Option Value := do
  ofTokens? (← tokens text.toList)

section Numbers
variable [NumberReader]

/-- Whether all strings decode, all numbers are doubles and nothing is nested deeper than given. -/
def decodes : Nat → Value → Bool
  | _, null => true
  | _, bool _ => true
  | _, number n => n.toFloat?.isSome
  | _, string s => s.isSome
  | 0, array _ => false
  | 0, object _ => false
  | depth + 1, array items => items.all (decodes depth)
  | depth + 1, object members => members.all fun (k, v) => k.isSome && decodes depth v

def float? : Value → Option Float
  | number n => n.toFloat?
  | _ => none

end Numbers

def nat? (limit : Nat) : Value → Option Nat
  | number n => n.toNat?.filter (· < limit)
  | _ => none

def string? : Value → Option String
  | string s => s
  | _ => none

def list? {α : Type} (item? : Value → Option α) : Value → Option (List α)
  | array items => items.mapM item?
  | _ => none

def valuesAt (key : String) (members : List (Option String × Value)) : List Value :=
  members.filterMap fun (k, v) => if k = some key then some v else none

end Value

end Quilt.Json
