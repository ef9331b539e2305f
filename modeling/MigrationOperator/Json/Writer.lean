/-
JSON text of a value: compact, members in key order, characters beyond ASCII as they are.
-/
import MigrationOperator.Json.Value
import MigrationOperator.Json.Decimal

namespace MigrationOperator

/-- lower-case hexadecimal digit of a number below sixteen -/
def hexDigit (n : Nat) : Char := if n < 10 then Char.ofNat (48 + n) else Char.ofNat (87 + n)

namespace Json

/-- a character within a string; control characters without a short escape are written as code units -/
def escapeChar (c : Char) : String :=
  match c with
  | '"' => "\\\""
  | '\\' => "\\\\"
  | '\x08' => "\\b"
  | '\x0c' => "\\f"
  | '\n' => "\\n"
  | '\r' => "\\r"
  | '\t' => "\\t"
  | c =>
    if c.toNat < 0x20 then "\\u00" ++ String.ofList [hexDigit (c.toNat / 16), hexDigit (c.toNat % 16)]
    else String.singleton c

def quote (s : String) : String := "\"" ++ s.foldl (fun acc c => acc ++ escapeChar c) "" ++ "\""

mutual

def text : Json → String
  | .null => "null"
  | .bool true => "true"
  | .bool false => "false"
  | .int n => toString n
  | .float x => Layout.json.render x
  | .str s => quote s
  | .arr xs => "[" ++ String.intercalate "," (textList xs) ++ "]"
  | .obj ms => "\x7b" ++ String.intercalate "," (textMembers ms) ++ "\x7d"

def textList : List Json → List String
  | [] => []
  | x :: xs => x.text :: textList xs

def textMembers : List (String × Json) → List String
  | [] => []
  | (k, v) :: ms => (quote k ++ ":" ++ v.text) :: textMembers ms

end

end Json

end MigrationOperator
