/-
Records: codecs of structures, built from one column a field.

`Columns ρ σ` lists the fields of a record in order. The value of a row is the product ρ of the fields; while members are
read, the product σ of optional fields holds those that were met. A `Style` says how strict the record is. Reading by
name stops at the first fault in the order of the document, whether it is an unknown key, a repeated one or a value;
fields that are still missing are filled in or complained of in field order. A list is read as the fields in order.
-/
import MigrationOperator.Codec.Basic

namespace MigrationOperator

/-- one field of a record -/
structure Column (α : Type) where
  name : String
  codec : Codec α
  /-- the value of a field that an object leaves out; without one the field is required -/
  absent : Option α
  /-- the value of a field that a list is too short for; without one the list is refused -/
  beyond : Option α := absent
  /-- values that are not written -/
  omitted : α → Bool := fun _ => false
  /-- the published description, in place of that of the value -/
  note : Option String := none

namespace Column

variable {α : Type}

/-- empty when left out, left out when empty -/
def text (name : String) (note : Option String := none) : Column String :=
  { name, codec := .text, absent := some "", omitted := (·.isEmpty), note }

/-- false when left out, left out when false -/
def flag (name : String) (note : Option String := none) : Column Bool :=
  { name, codec := .flag, absent := some false, omitted := (!·), note }

/-- zero when left out, left out when zero -/
def int32 (name : String) (note : Option String := none) : Column Int32 :=
  { name, codec := .int32, absent := some 0, omitted := (· == 0), note }

/-- empty when left out, left out when empty -/
def table (name : String) (codec : Codec α) (note : Option String := none) : Column (StringMap α) :=
  { name, codec := codec.table, absent := some .empty, omitted := (·.isEmpty), note }

/-- null or left out when there is no value, and then left out -/
def optional (name : String) (codec : Codec α) (note : Option String := none) : Column (Option α) :=
  { name, codec := codec.nullable, absent := some none, omitted := (·.isNone), note }

/-- a nested record: at its default when left out, and always written -/
def nested (name : String) (codec : Codec α) [Inhabited α] (note : Option String := none) : Column α :=
  { name, codec, absent := some default, note }

/-- without a default -/
def required (name : String) (codec : Codec α) : Column α :=
  { name, codec, absent := none }

/-- the default is published where it would be written -/
def schema (c : Column α) : Schema :=
  let noted := match c.note with
    | some note => .described note c.codec.schema
    | none => c.codec.schema
  match c.absent with
  | some x => if c.omitted x then noted else .defaulted (c.codec.write x) noted
  | none => noted

end Column

/-- the fields of a record in order -/
inductive Columns : Type → Type → Type 1 where
  | nil : Columns Unit Unit
  | cons {α ρ σ : Type} (column : Column α) (rest : Columns ρ σ) : Columns (α × ρ) (Option α × σ)

/-- how a record is read -/
structure Style where
  /-- what messages call the record -/
  title : String
  /-- keys that are no fields are refused -/
  strict : Bool := false
  /-- a key that is repeated replaces the value before -/
  repeats : Bool := false
  /-- a list of the fields is accepted -/
  listed : Bool := true

/-- a record that passes over unknown keys -/
def Style.lenient (name : String) : Style := { title := "struct " ++ name }

/-- a record that refuses unknown keys -/
def Style.closed (name : String) : Style := { title := "struct " ++ name, strict := true }

namespace Columns

variable {ρ σ : Type}

def names : {ρ σ : Type} → Columns ρ σ → List String
  | _, _, .nil => []
  | _, _, .cons c rest => c.name :: rest.names

/-- the number of fields -/
def width : {ρ σ : Type} → Columns ρ σ → Nat
  | _, _, .nil => 0
  | _, _, .cons _ rest => rest.width + 1

/-- no field met yet -/
def empty : {ρ σ : Type} → Columns ρ σ → σ
  | _, _, .nil => ()
  | _, _, .cons _ rest => (none, rest.empty)

/-- read a member into its field; none when no field has that key -/
def put (style : Style) (k : String) (d : Doc) : {ρ σ : Type} → Columns ρ σ → σ → Except DecodeError (Option σ)
  | _, _, .nil, _ => .ok none
  | _, _, .cons c rest, (slot, slots) =>
    if k = c.name then
      if slot.isSome && !style.repeats then .error (.duplicateField k)
      else do
        let x ← c.codec.read d
        return some (some x, slots)
    else do
      let slots ← rest.put style k d slots
      return slots.map (slot, ·)

/-- read the members of an object in order -/
def scan (style : Style) (columns : Columns ρ σ) : List (String × Doc) → σ → Except DecodeError σ
  | [], slots => .ok slots
  | (k, d) :: members, slots => do
    match ← columns.put style k d slots with
    | some slots => columns.scan style members slots
    | none =>
      if style.strict then throw (.unknownField k columns.names)
      DecodeError.ofText d.skip
      columns.scan style members slots

/-- the row, fields that were not met at their defaults -/
def finish : {ρ σ : Type} → Columns ρ σ → σ → Except DecodeError ρ
  | _, _, .nil, _ => .ok ()
  | _, _, .cons c rest, (slot, slots) => do
    let x ← match slot.or c.absent with
      | some x => .ok x
      | none => .error (.missingField c.name)
    let row ← rest.finish slots
    return (x, row)

/-- what a list too short for the fields lacks -/
def shortage (style : Style) (columns : Columns ρ σ) : String :=
  style.title ++ " with " ++ toString columns.width ++ (if columns.width = 1 then " element" else " elements")

/-- read the elements of a list in field order; gives the row and the elements left over -/
def readItems (wanted : String) (ending : Ending) :
    {ρ σ : Type} → Columns ρ σ → Nat → List Doc → Except DecodeError (ρ × List Doc)
  | _, _, .nil, _, ds => .ok ((), ds)
  | _, _, .cons c rest, i, d :: ds => do
    let x ← c.codec.read d
    let (row, left) ← rest.readItems wanted ending (i + 1) ds
    return ((x, row), left)
  | _, _, .cons c rest, i, [] => do
    DecodeError.ofText ending.check
    let x ← match c.beyond with
      | some x => .ok x
      | none => .error (.length i wanted)
    let (row, left) ← rest.readItems wanted ending i []
    return ((x, row), left)

/-- after the last field a list has to end -/
def checkSurplus (size : Nat) (left : List Doc) : Ending → Except DecodeError Unit
  | .measured => if left.isEmpty then .ok () else .error (.length size "fewer elements in array")
  | .closed => if left.isEmpty then .ok () else .error (.text .trailingCharacters)
  | .broken flaw =>
    if left.isEmpty ∧ (flaw.read = .trailingComma ∨ flaw.read = .endInList) then .error (.text flaw.read)
    else .error (.text .trailingCharacters)

def read (style : Style) (columns : Columns ρ σ) : Doc → Except DecodeError ρ
  | .obj members ending => do
    let slots ← columns.scan style members columns.empty
    DecodeError.ofText ending.check
    columns.finish slots
  | .arr items ending => do
    if !style.listed then throw (.mistyped .sequence style.title)
    let (row, left) ← columns.readItems (columns.shortage style) ending 0 items
    checkSurplus items.length left ending
    return row
  | d => .error (.mismatch d style.title)

/-- the members of a row that are not omitted, in field order -/
def write : {ρ σ : Type} → Columns ρ σ → ρ → List (String × Json)
  | _, _, .nil, _ => []
  | _, _, .cons c rest, (x, row) =>
    if c.omitted x then rest.write row else (c.name, c.codec.write x) :: rest.write row

def properties : {ρ σ : Type} → Columns ρ σ → List (String × Schema)
  | _, _, .nil => []
  | _, _, .cons c rest => (c.name, c.schema) :: rest.properties

/-- the fields without a default -/
def required : {ρ σ : Type} → Columns ρ σ → List String
  | _, _, .nil => []
  | _, _, .cons c rest => if c.absent.isNone then c.name :: rest.required else rest.required

end Columns

/-- the codec of a structure: its columns, the row of a value and the value of a row -/
def Codec.record {α ρ σ : Type} (style : Style) (columns : Columns ρ σ) (row : α → ρ) (ofRow : ρ → α)
    (note : Option String := none) : Codec α where
  schema := match note with
    | some note => .described note (.record columns.properties columns.required)
    | none => .record columns.properties columns.required
  read d := (columns.read style d).map ofRow
  write x := .object (columns.write (row x))

end MigrationOperator
