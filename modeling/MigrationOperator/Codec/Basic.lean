/-
Codecs: how a value is read from a document, how it is written, and what is published about it.

A codec is lawful when reading what it writes gives the value back. The codecs of this module are the scalars, lists, maps
and nullable values; records are built from columns in `Codec.Record`.
-/
import MigrationOperator.Codec.Error
import MigrationOperator.Codec.Schema

namespace MigrationOperator

structure Codec (α : Type) where
  schema : Schema
  read : Doc → Except DecodeError α
  write : α → Json

namespace Codec

variable {α β : Type}

/-- reading what is written gives this value back -/
def Keeps (c : Codec α) (x : α) : Prop := c.read (c.write x).doc = .ok x

/-- every value is read back from what is written -/
def Lawful (c : Codec α) : Prop := ∀ x, c.Keeps x

/-- decode a value held in memory -/
def decode (c : Codec α) (j : Json) : Except DecodeError α := c.read j.doc

/-- decode a whole text -/
def decodeText (c : Codec α) (t : Reading) : Except DecodeError α := do
  let x ← c.read t.doc
  if t.trailing then throw (.text .trailingCharacters)
  return x

/-- the codec of a type that stands for another one -/
def imap (f : α → β) (g : β → α) (c : Codec α) : Codec β where
  schema := c.schema
  read d := (c.read d).map f
  write x := c.write (g x)

/-! ## Scalars -/

def text : Codec String where
  schema := .text
  read
    | .str s => .ok s
    | d => .error (.mismatch d "a string")
  write := .str

def flag : Codec Bool where
  schema := .flag
  read
    | .bool b => .ok b
    | d => .error (.mismatch d "a boolean")
  write := .bool

/-- integers of a range; `wanted` names the range -/
def readInteger (wanted : String) (low high : Int) : Doc → Except DecodeError Int
  | .int n => if low ≤ n ∧ n ≤ high then .ok n else .error (.disallowed (.integer n) wanted)
  | d => .error (.mismatch d wanted)

def int32 : Codec Int32 where
  schema := .int32
  read d := (readInteger "i32" Int32.minValue.toInt Int32.maxValue.toInt d).map Int32.ofInt
  write n := .int n.toInt

def int64 : Codec Int64 where
  schema := .any
  read d := (readInteger "i64" Int64.minValue.toInt Int64.maxValue.toInt d).map Int64.ofInt
  write n := .int n.toInt

def uint16 : Codec UInt16 where
  schema := .any
  read d := (readInteger "u16" 0 (UInt16.size - 1) d).map (fun n => UInt16.ofNat n.toNat)
  write n := .int n.toNat

def uint32 : Codec UInt32 where
  schema := .any
  read d := (readInteger "u32" 0 (UInt32.size - 1) d).map (fun n => UInt32.ofNat n.toNat)
  write n := .int n.toNat

/-- any value -/
def value : Codec Json where
  schema := .any
  read d := DecodeError.ofText d.value
  write j := j

/-- the one text that is allowed -/
def constant (s : String) : Codec Unit where
  schema := .any
  read
    | .str t => if t = s then .ok () else .error (.disallowed (.text t) s)
    | d => .error (.mismatch d "a string")
  write _ := .str s

/-! ## Composites -/

/-- null stands for no value -/
def nullable (c : Codec α) : Codec (Option α) where
  schema := .nullable c.schema
  read
    | .null => .ok none
    | d => (c.read d).map some
  write
    | none => .null
    | some x => c.write x

def readList (c : Codec α) : List Doc → Except DecodeError (List α)
  | [] => .ok []
  | d :: ds => do
    let x ← c.read d
    let xs ← readList c ds
    return x :: xs

def list (c : Codec α) : Codec (List α) where
  schema := .any
  read
    | .arr items ending => do
      let xs ← c.readList items
      DecodeError.ofText ending.check
      return xs
    | d => .error (.mismatch d "a sequence")
  write xs := .arr (xs.map c.write)

/-- keyed values in the order of the document -/
def readMembers (c : Codec α) : List (String × Doc) → Except DecodeError (List (String × α))
  | [] => .ok []
  | (k, d) :: ds => do
    let x ← c.read d
    let xs ← readMembers c ds
    return (k, x) :: xs

/-- maps of any keys; of two members with one key the later counts -/
def table (c : Codec α) : Codec (StringMap α) where
  schema := .table c.schema
  read
    | .obj members ending => do
      let es ← c.readMembers members
      DecodeError.ofText ending.check
      return .ofList es
    | d => .error (.mismatch d "a map")
  write m := .obj (m.entries.map fun e => (e.1, c.write e.2))

end Codec

end MigrationOperator
