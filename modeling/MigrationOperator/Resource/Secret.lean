/-
Secrets of the cluster: named byte strings, in base64 where they are written.
-/
import MigrationOperator.Resource.Metadata

namespace MigrationOperator

structure Secret where
  /-- byte strings by key -/
  data : Option (StringMap ByteArray) := none
  /-- the data may not be updated any more -/
  isImmutable : Option Bool := none
  metadata : Metadata := {}
  /-- data given as text -/
  stringData : Option (StringMap String) := none
  type : Option String := none

instance : Inhabited Secret := ⟨{}⟩

/-- byte strings in base64; null reads as the empty one -/
def Codec.bytes : Codec ByteArray where
  schema := .any
  read
    | .null => .ok .empty
    | .str s => match Base64.decode s.toUTF8.toList with
      | .ok bytes => .ok bytes.toByteArray
      | .error fault => .error (.base64 fault)
    | d => .error (.mismatch d "a base64-encoded string")
  write b := .str (String.ofList (Base64.encode b.toList))

/-- a member that holds one text alone, which is also written -/
def Column.constant (name value : String) : Column Unit :=
  { name, codec := .constant value, absent := some () }

/-- metadata that is always written; null or left out reads as empty -/
def Column.metadata : Column Metadata :=
  { name := "metadata", codec := (Codec.nullable Metadata.codec).imap (·.getD {}) some, absent := some {} }

namespace Secret

def apiVersion : String := "v1"

def kind : String := "Secret"

def codec : Codec Secret :=
  .record (.platform "Secret")
    (.cons (.constant "apiVersion" apiVersion) <|
     .cons (.constant "kind" kind) <|
     .cons (.optional "data" (.table .bytes)) <|
     .cons (.optional "immutable" .flag) <|
     .cons .metadata <|
     .cons (.optional "stringData" (.table .text)) <|
     .cons (.optional "type" .text) .nil)
    (fun x => ((), (), x.data, x.isImmutable, x.metadata, x.stringData, x.type, ()))
    (fun ((), (), data, isImmutable, metadata, stringData, type, ()) =>
      ⟨data, isImmutable, metadata, stringData, type⟩)

end Secret

end MigrationOperator
