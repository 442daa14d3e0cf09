import Quilt.Json.Value

namespace Quilt.Json

/-- Escapes what must be, in the short form where there is one. -/
def escape (c : Char) : List Char :=
  match c with
  | '"' => ['\\', '"']
  | '\\' => ['\\', '\\']
  | '\x08' => ['\\', 'b']
  | '\x0c' => ['\\', 'f']
  | '\n' => ['\\', 'n']
  | '\r' => ['\\', 'r']
  | '\t' => ['\\', 't']
  | c => if c.toNat < 0x20 then '\\' :: 'u' :: Text.paddedDigits 16 4 c.toNat else [c]

def quote (s : String) : List Char :=
  '"' :: s.toList.flatMap escape ++ ['"']

def newline (depth : Nat) : List Char := '\n' :: List.replicate (2 * depth) ' '

def lines (depth : Nat) (items : List (List Char)) : List Char :=
  (List.intersperse [','] (items.map (newline depth ++ ·))).flatten

mutual

def Value.text (depth : Nat) : Value → List Char
  | .null => "null".toList
  | .bool true => "true".toList
  | .bool false => "false".toList
  | .number n => n.text
  | .string s => quote (s.getD "")
  | .array [] => ['[', ']']
  | .array (item :: items) =>
    '[' :: lines (depth + 1) (itemTexts (depth + 1) (item :: items)) ++ newline depth ++ [']']
  | .object [] => ['{', '}']
  | .object (member :: members) =>
    '{' :: lines (depth + 1) (memberTexts (depth + 1) (member :: members)) ++ newline depth ++ ['}']

def itemTexts (depth : Nat) : List Value → List (List Char)
  | [] => []
  | item :: items => item.text depth :: itemTexts depth items

def memberTexts (depth : Nat) : List (Option String × Value) → List (List Char)
  | [] => []
  | (k, v) :: members => (quote (k.getD "") ++ ':' :: ' ' :: v.text depth) :: memberTexts depth members

end

def Value.pretty (v : Value) : String := String.ofList (v.text 0)

end Quilt.Json
