/-
Objects without a schema.

An `Opaque` object keeps its metadata and every other member as it stands. The version and kind an object is labelled with
are kept only when both are text; a label that does not read is dropped together with what was read of it, and the
label says nothing about the schema the object is stored in.
-/
import MigrationOperator.Resource.Metadata

namespace MigrationOperator

/-- the version and kind an object is labelled with -/
structure TypeLabel where
  apiVersion : String
  kind : String
deriving DecidableEq

structure Opaque where
  label : Option TypeLabel
  metadata : Metadata
  /-- the members besides label and metadata -/
  members : StringMap Json

namespace Opaque

/-- the metadata, if it is given, and the other members in the order of the document -/
def scan : Option Metadata → List (String × Doc) → Except DecodeError (Option Metadata × List (String × Json))
  | found, [] => .ok (found, [])
  | found, (k, d) :: rest =>
    if k = "metadata" then
      if found.isSome then .error (.duplicateField k)
      else do
        let x ← Metadata.codec.read d
        scan (some x) rest
    else do
      let v ← DecodeError.ofText d.value
      let (found, members) ← scan found rest
      return (found, (k, v) :: members)

/-- a label as far as it was read -/
structure PartialLabel where
  apiVersion : Option String := none
  kind : Option String := none

def PartialLabel.whole? (l : PartialLabel) : Option TypeLabel := do
  return ⟨← l.apiVersion, ← l.kind⟩

/-- read one member of the label; fails on a repeated one and on one that is no text -/
def PartialLabel.read? (l : PartialLabel) (k : String) (v : Json) : Option PartialLabel :=
  match v with
  | .str s =>
    if k = "apiVersion" then (if l.apiVersion.isSome then none else some { l with apiVersion := some s })
    else if l.kind.isSome then none
    else some { l with kind := some s }
  | _ => none

/-- take the label out of the members; the first member of it that does not read ends the search -/
def splitLabel (l : PartialLabel) : List (String × Json) → Option TypeLabel × List (String × Json)
  | [] => (l.whole?, [])
  | (k, v) :: rest =>
    if k = "apiVersion" ∨ k = "kind" then
      match l.read? k v with
      | some l => splitLabel l rest
      | none => (none, rest)
    else
      let (label, left) := splitLabel l rest
      (label, (k, v) :: left)

def read : Doc → Except DecodeError Opaque
  | .obj members ending => do
    let (metadata, members) ← scan none members
    DecodeError.ofText ending.check
    let (label, rest) := splitLabel {} members
    return ⟨label, metadata.getD {}, .ofList rest⟩
  | d => .error (.mismatch d "struct DynamicObject")

def labelMembers : Option TypeLabel → List (String × Json)
  | some l => [("apiVersion", .str l.apiVersion), ("kind", .str l.kind)]
  | none => []

def write (x : Opaque) : Json :=
  .object (labelMembers x.label ++ ("metadata", Metadata.codec.write x.metadata) :: x.members.entries)

def codec : Codec Opaque := ⟨.any, read, write⟩

def name (x : Opaque) : String := x.metadata.displayName

/-- a member besides label and metadata -/
def get? (k : String) (x : Opaque) : Option Json := x.members.get? k

end Opaque

end MigrationOperator
