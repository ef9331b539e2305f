/-
YAML text of a value: block style, two spaces a level, lists at the level of their key.

A text is written plain where that reads back as the same text, and in single quotes otherwise. A text of several lines is a
literal block; one with control characters besides the line feed is put in double quotes.
-/
import MigrationOperator.Json.Writer

namespace MigrationOperator.Yaml

/-- plain words that stand for something else than text -/
def reserved : List String :=
  ["", "~", "null", "Null", "NULL", "true", "True", "TRUE", "false", "False", "FALSE", "y", "Y", "n", "N", "yes", "Yes",
    "YES", "no", "No", "NO", "on", "On", "ON", "off", "Off", "OFF", ".inf", "-.inf", "+.inf", ".nan", "<<", "="]

/-- the text could be taken for a number: digits, a point, an exponent and signs after a digit or a sign -/
def looksNumeric (cs : List Char) : Bool :=
  let body := match cs with
    | '+' :: rest | '-' :: rest => rest
    | cs => cs
  match body with
  | c :: _ => (c.isDigit || c == '.') && body.any Char.isDigit && body.all fun c => c.isAlphanum || "+-._:".toList.contains c
  | [] => true

/-- characters that may not begin a plain text -/
def indicators : List Char := "-?:,[]\x7b\x7d#&*!|>'\"%@`".toList

/-- a colon or a number sign would end the text -/
def breaksOff : List Char → Bool
  | [] => false
  | [':'] => true
  | ':' :: c :: cs => c == ' ' || breaksOff (c :: cs)
  | ' ' :: '#' :: _ => true
  | _ :: cs => breaksOff cs

def isPlain (s : String) : Bool :=
  let cs := s.toList
  !reserved.contains s && !looksNumeric cs && !breaksOff cs && cs.head? ≠ some ' ' && cs.getLast? ≠ some ' ' &&
    !(cs.head?.any indicators.contains)

def isControl (c : Char) : Bool := c.toNat < 0x20 || c.toNat = 0x7f

/-- an escape in double quotes -/
def escape (c : Char) : String :=
  match c with
  | '"' => "\\\""
  | '\\' => "\\\\"
  | '\n' => "\\n"
  | '\t' => "\\t"
  | '\r' => "\\r"
  | c =>
    if isControl c then "\\x" ++ String.ofList [(hexDigit (c.toNat / 16)).toUpper, (hexDigit (c.toNat % 16)).toUpper]
    else String.singleton c

def doubleQuoted (s : String) : String := "\"" ++ String.join (s.toList.map escape) ++ "\""

/-- a quote within single quotes is written twice -/
def singleQuoted (s : String) : String :=
  "'" ++ String.join (s.toList.map fun c => if c = '\'' then "''" else String.singleton c) ++ "'"

/-- a text on one line -/
def inlineText (s : String) : String :=
  if s.toList.any isControl then doubleQuoted s else if isPlain s then s else singleQuoted s

/-- several lines without any other control character, none of them empty and the first not indented -/
def isLiteral (s : String) : Bool :=
  let lines := s.splitOn "\n"
  1 < lines.length && !s.toList.any (fun c => isControl c && c ≠ '\n') && lines.all (fun l => !l.isEmpty) &&
    s.toList.head? ≠ some ' '

def indent (line : String) : String := "  " ++ line

/-- lines after a head such as a key, given the lines of a block that would stand below it -/
def under (head : String) (below : List String) : List String := head :: below.map indent

/-- an item of a list: a dash before its first line and its other lines below that -/
def item : List String → List String
  | [] => ["-"]
  | first :: rest => ("- " ++ first) :: rest.map indent

mutual

/-- the lines of a value that follows a head -/
def entry (head : String) : Json → List String
  | .obj [] => [head ++ " \x7b\x7d"]
  | .obj (m :: ms) => under head (members (m :: ms))
  | .arr [] => [head ++ " []"]
  | .arr (x :: xs) => head :: items (x :: xs)
  | .str s => if isLiteral s then under (head ++ " |-") (s.splitOn "\n") else [head ++ " " ++ inlineText s]
  | .null => [head ++ " null"]
  | .bool b => [head ++ " " ++ toString b]
  | .int n => [head ++ " " ++ toString n]
  | .float x => [head ++ " " ++ Layout.json.render x]

def members : List (String × Json) → List String
  | [] => []
  | (k, v) :: ms => entry (inlineText k ++ ":") v ++ members ms

def items : List Json → List String
  | [] => []
  | .obj (m :: ms) :: xs => item (members (m :: ms)) ++ items xs
  | .arr (y :: ys) :: xs => item (items (y :: ys)) ++ items xs
  | x :: xs => entry "-" x ++ items xs

end

/-- the lines of a whole document -/
def lines : Json → List String
  | .obj (m :: ms) => members (m :: ms)
  | .arr (x :: xs) => items (x :: xs)
  | .str s => if isLiteral s then "|-" :: (s.splitOn "\n").map indent else [inlineText s]
  | .obj [] => ["\x7b\x7d"]
  | .arr [] => ["[]"]
  | j => [j.text]

/-- the text of a whole document -/
def text (j : Json) : String := String.join ((lines j).map (· ++ "\n"))

end MigrationOperator.Yaml
