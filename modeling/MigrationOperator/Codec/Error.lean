/-
Why a document does not decode.

Each cause is a constructor; `DecodeError.message` is the one place that words them.
-/
import MigrationOperator.Json.Document
import MigrationOperator.Json.Decimal
import MigrationOperator.Text.Quoted
import MigrationOperator.Text.Base64
import MigrationOperator.Time.Fault

namespace MigrationOperator

/-- what a document held instead of what was wanted -/
inductive Found where
  | null
  | bool (b : Bool)
  | integer (n : Int)
  | float (x : Binary64)
  | text (s : String)
  | sequence
  | map
deriving DecidableEq

def Found.describe : Found → String
  | .null => "null"
  | .bool b => "boolean `" ++ toString b ++ "`"
  | .integer n => "integer `" ++ toString n ++ "`"
  | .float x => "floating point `" ++ Layout.json.render x ++ "`"
  | .text s => "string " ++ Quotation.quote s
  | .sequence => "sequence"
  | .map => "map"

inductive DecodeError where
  /-- the text breaks off or is malformed -/
  | text (fault : TextFault)
  /-- a value of another type -/
  | mistyped (found : Found) (wanted : String)
  /-- a value of the right type that is not allowed -/
  | disallowed (found : Found) (wanted : String)
  | unknownField (name : String) (known : List String)
  | missingField (name : String)
  | duplicateField (name : String)
  /-- a list with too many or too few elements -/
  | length (n : Nat) (wanted : String)
  | base64 (fault : Base64.Fault)
  | timestamp (fault : TimeText.Fault)
deriving DecidableEq

namespace DecodeError

private def tick (name : String) : String := "`" ++ name ++ "`"

/-- the fields that would have been known -/
def expectedFields : List String → String
  | [] => "there are no fields"
  | [a] => "expected " ++ tick a
  | [a, b] => "expected " ++ tick a ++ " or " ++ tick b
  | names => "expected one of " ++ String.intercalate ", " (names.map tick)

def message : DecodeError → String
  | .text fault => fault.message
  | .mistyped found wanted => "invalid type: " ++ found.describe ++ ", expected " ++ wanted
  | .disallowed found wanted => "invalid value: " ++ found.describe ++ ", expected " ++ wanted
  | .unknownField name known => "unknown field " ++ tick name ++ ", " ++ expectedFields known
  | .missingField name => "missing field " ++ tick name
  | .duplicateField name => "duplicate field " ++ tick name
  | .length n wanted => "invalid length " ++ toString n ++ ", expected " ++ wanted
  | .base64 fault => fault.message
  | .timestamp fault => fault.message

/-- the error of a document that is not what was wanted -/
def mismatch (d : Doc) (wanted : String) : DecodeError :=
  match d with
  | .null => .mistyped .null wanted
  | .bool b => .mistyped (.bool b) wanted
  | .int n => .mistyped (.integer n) wanted
  | .float x => .mistyped (.float x) wanted
  | .str s => .mistyped (.text s) wanted
  | .arr _ _ => .mistyped .sequence wanted
  | .obj _ _ => .mistyped .map wanted
  | .flawed flaw => .text flaw.read

/-- a fault of text as an error of decoding -/
def ofText {α : Type} (r : Except TextFault α) : Except DecodeError α := r.mapError .text

@[simp] theorem ofText_ok {α : Type} (x : α) : ofText (.ok x) = .ok x := rfl

@[simp] theorem ofText_error {α : Type} (f : TextFault) : ofText (.error f : Except TextFault α) = .error (.text f) := rfl

end DecodeError

end MigrationOperator
