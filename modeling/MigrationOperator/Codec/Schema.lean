/-
Published schemas.

A `Schema` is what a custom resource definition says about one value: its type, and the notes, defaults and null that go
with it. `Schema.json` is its OpenAPI form. Schemas are derived from the codecs that read and write the values, so what
is published and what is written have one source.
-/
import MigrationOperator.Json.Value

namespace MigrationOperator

inductive Schema where
  | any
  | text
  | flag
  | int32
  /-- a resource quantity: a number or a text -/
  | quantity
  /-- an object of any keys whose values have one schema -/
  | table (values : Schema)
  /-- an object of these members, of which the named ones may not be left out -/
  | record (properties : List (String × Schema)) (required : List String)
  | nullable (schema : Schema)
  | described (note : String) (schema : Schema)
  | defaulted (value : Json) (schema : Schema)

namespace Schema

/-- the published description of a resource quantity -/
def quantityNote : String :=
  "Quantity is a fixed-point representation of a number. It provides convenient marshaling/unmarshaling in JSON and " ++
  "YAML, in addition to String() and AsInt64() accessors.\n\n" ++
  "The serialization format is:\n\n" ++
  "``` <quantity>        ::= <signedNumber><suffix>\n\n" ++
  "\t(Note that <suffix> may be empty, from the \"\" case in <decimalSI>.)\n\n" ++
  "<digit>           ::= 0 | 1 | ... | 9 <digits>          ::= <digit> | <digit><digits> <number>          ::= " ++
  "<digits> | <digits>.<digits> | <digits>. | .<digits> <sign>            ::= \"+\" | \"-\" <signedNumber>    ::= " ++
  "<number> | <sign><number> <suffix>          ::= <binarySI> | <decimalExponent> | <decimalSI> " ++
  "<binarySI>        ::= Ki | Mi | Gi | Ti | Pi | Ei\n\n" ++
  "\t(International System of units; See: http:" ++
  "//physics.nist.gov/cuu/Units/binary.html)\n\n" ++
  "<decimalSI>       ::= m | \"\" | k | M | G | T | P | E\n\n" ++
  "\t(Note that 1024 = 1Ki but 1000 = 1k; I didn't choose the capitalization.)\n\n" ++
  "<decimalExponent> ::= \"e\" <signedNumber> | \"E\" <signedNumber> ```\n\n" ++
  "No matter which of the three exponent forms is used, no quantity may represent a number greater than 2^63-1 in " ++
  "magnitude, nor may it have more than 3 decimal places. Numbers larger or more precise will be capped or rounded " ++
  "up. (E.g.: 0.1m will rounded up to 1m.) This may be extended in the future if we require larger or smaller " ++
  "quantities.\n\n" ++
  "When a Quantity is parsed from a string, it will remember the type of suffix it had, and will use the same type " ++
  "again when it is serialized.\n\n" ++
  "Before serializing, Quantity will be put in \"canonical form\". This means that Exponent/suffix will be adjusted " ++
  "up or down (with a corresponding increase or decrease in Mantissa) such that:\n\n" ++
  "- No precision is lost - No fractional digits will be emitted - The exponent (or suffix) is as large as " ++
  "possible.\n\n" ++
  "The sign will be omitted unless the number is negative.\n\n" ++
  "Examples:\n\n" ++
  "- 1.5 will be serialized as \"1500m\" - 1.5Gi will be serialized as \"1536Mi\"\n\n" ++
  "Note that the quantity will NEVER be internally represented by a floating point number. That is the whole point " ++
  "of this exercise.\n\n" ++
  "Non-canonical values will still parse as long as they are well formed, but will be re-emitted in their canonical " ++
  "form. (So always use canonical form, or don't diff.)\n\n" ++
  "This format is intended to make it difficult to use these numbers without writing some sort of special handling " ++
  "code in the hopes that that will cause implementors to also use a fixed point implementation."

private def typed (name : String) : Json := .object [("type", .str name)]

mutual

/-- the OpenAPI form -/
def json : Schema → Json
  | .any => .obj []
  | .text => typed "string"
  | .flag => typed "boolean"
  | .int32 => (typed "integer").set "format" (.str "int32")
  | .quantity => .object [("description", .str quantityNote), ("x-kubernetes-int-or-string", .bool true)]
  | .table values => (typed "object").set "additionalProperties" values.json
  | .record properties required =>
    let j := (typed "object").set "properties" (.object (jsonProperties properties))
    if required.isEmpty then j else j.set "required" (.strings required)
  | .nullable schema => schema.json.set "nullable" (.bool true)
  | .described note schema => schema.json.set "description" (.str note)
  | .defaulted value schema => schema.json.set "default" value

def jsonProperties : List (String × Schema) → List (String × Json)
  | [] => []
  | (name, schema) :: rest => (name, schema.json) :: jsonProperties rest

end

end Schema

end MigrationOperator
