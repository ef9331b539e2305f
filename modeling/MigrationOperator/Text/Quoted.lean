/-
Text as messages quote it: in double quotes, with a backslash before quotes and backslashes, short escapes for the usual
control characters and the code point in hexadecimal for anything else that does not show by itself.

Single bytes and input that a reader left over have a spelling of their own: what is not printable ASCII is written by its
bytes, and the single quote has a backslash too.
-/
import MigrationOperator.Text.Visible

namespace MigrationOperator.Quotation

/-- the code point in hexadecimal, without leading zeros -/
def codePoint (c : Char) : String := "\\u\x7b" ++ String.ofList (Nat.toDigits 16 c.toNat) ++ "\x7d"

def escape (c : Char) : String :=
  match c with
  | '\x00' => "\\0"
  | '\t' => "\\t"
  | '\n' => "\\n"
  | '\r' => "\\r"
  | '"' => "\\\""
  | '\\' => "\\\\"
  | c => if isVisible c then String.singleton c else codePoint c

def quote (s : String) : String := "\"" ++ String.join (s.toList.map escape) ++ "\""

/-! ## Bytes -/

/-- a byte as two hexadecimal digits -/
def hexadecimal (b : UInt8) : List Char :=
  let digits := Nat.toDigits 16 b.toNat
  List.replicate (2 - digits.length) '0' ++ digits

/-- a byte by its hexadecimal digits, unless it has a short escape or is printable ASCII -/
def escapeByte (digits : UInt8 → List Char) (b : UInt8) : String :=
  match Char.ofNat b.toNat with
  | '\t' => "\\t"
  | '\n' => "\\n"
  | '\r' => "\\r"
  | '\'' => "\\'"
  | '"' => "\\\""
  | '\\' => "\\\\"
  | c => if 0x20 ≤ b ∧ b < 0x7f then String.singleton c else "\\x" ++ String.ofList (digits b)

/-- a single byte, its hexadecimal digits in capitals -/
def byte (b : UInt8) : String := escapeByte (fun b => (hexadecimal b).map Char.toUpper) b

/-- a character of input that was left over -/
def escapeRest (c : Char) : String :=
  if c = '\x00' then "\\0" else if c.toNat < 0x80 then escapeByte hexadecimal c.toUInt8 else escape c

/-- input that was left over -/
def quoteRest (cs : List Char) : String := "\"" ++ String.join (cs.map escapeRest) ++ "\""

end MigrationOperator.Quotation
