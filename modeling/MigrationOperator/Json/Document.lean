/-
JSON documents as they are written.

A `Doc` keeps what a value forgets: the order of members, repeated keys, and the point at which a text breaks off. Typed
decoding reads documents, so that a value held in memory (`Json.doc`) and a text are decoded by one definition and the
first fault in reading order wins, be it one of type or of text.

A fault of text may depend on how it is met. Reading a value takes every token at its meaning; passing over a value that
nobody asked for only follows its grammar. A `Flaw` records both: the fault that reading meets, and the one that passing
over meets, if any.
-/
import MigrationOperator.Json.Value

namespace MigrationOperator

/-! ## Faults of text -/

inductive TextFault where
  | endInList
  | endInObject
  | endInString
  | endInValue
  | expectedColon
  | expectedListCommaOrEnd
  | expectedObjectCommaOrEnd
  | expectedIdent
  | expectedValue
  | invalidEscape
  | invalidNumber
  | numberOutOfRange
  | controlCharacter
  | keyNotString
  | loneSurrogate
  | truncatedSurrogate
  | trailingComma
  | trailingCharacters
  | nestedTooDeep
deriving DecidableEq

def TextFault.message : TextFault → String
  | .endInList => "EOF while parsing a list"
  | .endInObject => "EOF while parsing an object"
  | .endInString => "EOF while parsing a string"
  | .endInValue => "EOF while parsing a value"
  | .expectedColon => "expected `:`"
  | .expectedListCommaOrEnd => "expected `,` or `]`"
  | .expectedObjectCommaOrEnd => "expected `,` or `\x7d`"
  | .expectedIdent => "expected ident"
  | .expectedValue => "expected value"
  | .invalidEscape => "invalid escape"
  | .invalidNumber => "invalid number"
  | .numberOutOfRange => "number out of range"
  | .controlCharacter => "control character (\\u0000-\\u001F) found while parsing a string"
  | .keyNotString => "key must be a string"
  | .loneSurrogate => "lone leading surrogate in hex escape"
  | .truncatedSurrogate => "unexpected end of hex escape"
  | .trailingComma => "trailing comma"
  | .trailingCharacters => "trailing characters"
  | .nestedTooDeep => "recursion limit exceeded"

/-- the fault met by reading here, and the one met by passing over, if the grammar is broken too -/
structure Flaw where
  read : TextFault
  skipped : Option TextFault
deriving DecidableEq

/-- a fault that is the same either way -/
def TextFault.flaw (f : TextFault) : Flaw := ⟨f, some f⟩

/-- how a list or an object ends -/
inductive Ending where
  /-- held in memory: its size is known beforehand -/
  | measured
  /-- closed by its bracket -/
  | closed
  | broken (flaw : Flaw)
deriving DecidableEq

/-! ## Documents -/

inductive Doc where
  | null
  | bool (b : Bool)
  | int (n : Int)
  | float (x : Binary64)
  | str (s : String)
  | arr (items : List Doc) (ending : Ending)
  /-- members in the order of the document -/
  | obj (members : List (String × Doc)) (ending : Ending)
  /-- a value that cannot be read -/
  | flawed (flaw : Flaw)

instance : Inhabited Doc := ⟨.null⟩

namespace Ending

/-- succeeds on a list or object that reading gets to the end of -/
def check : Ending → Except TextFault Unit
  | .broken flaw => .error flaw.read
  | _ => .ok ()

/-- succeeds on a list or object that can be passed over -/
def skip : Ending → Except TextFault Unit
  | .broken ⟨_, some f⟩ => .error f
  | _ => .ok ()

end Ending

/-! ## Values in documents -/

mutual

/-- the document of a value held in memory -/
def Json.doc : Json → Doc
  | .null => .null
  | .bool b => .bool b
  | .int n => .int n
  | .float x => .float x
  | .str s => .str s
  | .arr xs => .arr (Json.docList xs) .measured
  | .obj ms => .obj (Json.docMembers ms) .measured

def Json.docList : List Json → List Doc
  | [] => []
  | x :: xs => x.doc :: Json.docList xs

def Json.docMembers : List (String × Json) → List (String × Doc)
  | [] => []
  | (k, v) :: ms => (k, v.doc) :: Json.docMembers ms

end

mutual

/-- the value that a document writes; of members with one key the last counts -/
def Doc.value : Doc → Except TextFault Json
  | .null => .ok .null
  | .bool b => .ok (.bool b)
  | .int n => .ok (.int n)
  | .float x => .ok (.float x)
  | .str s => .ok (.str s)
  | .arr items ending => do
    let xs ← Doc.valueList items
    ending.check
    return .arr xs
  | .obj members ending => do
    let ms ← Doc.valueMembers members
    ending.check
    return Json.object ms
  | .flawed flaw => .error flaw.read

def Doc.valueList : List Doc → Except TextFault (List Json)
  | [] => .ok []
  | d :: ds => do
    let x ← d.value
    let xs ← Doc.valueList ds
    return x :: xs

def Doc.valueMembers : List (String × Doc) → Except TextFault (List (String × Json))
  | [] => .ok []
  | (k, d) :: ds => do
    let x ← d.value
    let xs ← Doc.valueMembers ds
    return (k, x) :: xs

end

mutual

/-- succeeds on a document that can be passed over -/
def Doc.skip : Doc → Except TextFault Unit
  | .arr items ending => do
    Doc.skipList items
    ending.skip
  | .obj members ending => do
    Doc.skipMembers members
    ending.skip
  | .flawed ⟨_, some f⟩ => .error f
  | _ => .ok ()

def Doc.skipList : List Doc → Except TextFault Unit
  | [] => .ok ()
  | d :: ds => do
    d.skip
    Doc.skipList ds

def Doc.skipMembers : List (String × Doc) → Except TextFault Unit
  | [] => .ok ()
  | (_, d) :: ds => do
    d.skip
    Doc.skipMembers ds

end

/-- a whole text: the document it starts with, and whether anything but blanks follows -/
structure Reading where
  doc : Doc
  trailing : Bool

/-- a value held in memory as a whole text -/
def Json.reading (j : Json) : Reading := ⟨j.doc, false⟩

end MigrationOperator
