/-
Resources: objects of one schema version.

A `Resource` has metadata, a spec and perhaps a status; `Kind` says of which version a spec is and how it is coded. A
resource is written under its own version whatever it was read under, and passes over members it does not know.
-/
import MigrationOperator.Resource.Metadata
import MigrationOperator.Resource.Status
import MigrationOperator.Resource.Version

namespace MigrationOperator

/-- an object whose spec is of type σ -/
structure Resource (σ : Type) where
  metadata : Metadata
  spec : σ
  status : Option Status

/-- a schema version and the codec of its spec -/
structure Kind (σ : Type) where
  version : SchemaVersion
  spec : Codec σ

namespace Resource

variable {σ : Type}

/-- lifecycle phase; an object without a status has none -/
def phase (r : Resource σ) : Phase := (r.status.map (·.phase)).getD .missing

def name (r : Resource σ) : String := r.metadata.displayName

/-- the same object read at another revision -/
def atRevision (r : Resource σ) (revision : Option String) : Resource σ :=
  { r with metadata := { r.metadata with resourceVersion := revision } }

end Resource

namespace Kind

variable {σ : Type}

/-- metadata, spec and status as a record; a list has to hold all three -/
def fields (k : Kind σ) : Codec (Resource σ) :=
  .record (.lenient SchemaVersion.kind)
    (.cons (.required "metadata" Metadata.codec) <|
     .cons (.required "spec" k.spec) <|
     .cons { Column.optional "status" Status.codec with beyond := none } .nil)
    (fun x => (x.metadata, x.spec, x.status, ()))
    (fun (metadata, spec, status, ()) => ⟨metadata, spec, status⟩)

/-- written with the version and the kind -/
def codec (k : Kind σ) : Codec (Resource σ) where
  schema := k.fields.schema
  read := k.fields.read
  write x := (k.fields.write x).set "apiVersion" (.str k.version.apiVersion) |>.set "kind" (.str SchemaVersion.kind)

def write (k : Kind σ) (r : Resource σ) : Json := k.codec.write r

end Kind

end MigrationOperator
