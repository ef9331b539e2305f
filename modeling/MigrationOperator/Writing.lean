/-
Writing a resource back.

A resource that was never read is created, and its status is written after that. One that was read is replaced: its status
goes first, pinned to the revision it was read at, and the replacement is pinned to the revision that the status write
answered. A failure between the two leaves the stored spec untouched, and the whole write can be repeated.
-/
import MigrationOperator.Api.Program
import MigrationOperator.Context
import MigrationOperator.Resource.Basic

namespace MigrationOperator.Writing

variable {σ : Type}

/-- the patch that sets a status at a revision -/
def statusPatch (revision : Option String) (status : Status) : Json :=
  .object [("metadata", .object [("resourceVersion", .ofOption (revision.map .str))]),
    ("status", Status.codec.write status)]

/-- write the status of a resource at the revision it carries; nothing is sent when it has none -/
def writeStatus (c : Context) (k : Kind σ) (r : Resource σ) : Action (Option Opaque) :=
  match r.status with
  | none => return none
  | some status => do
    let patch := statusPatch r.metadata.resourceVersion status
    let answer ← Action.request Opaque.codec
      ⟨r.metadata.namespaceName.getD c.defaultNamespace, .patchStatus k.version r.name patch⟩
    return some answer

/-- what a status write answered, as a resource of the version that was written -/
def readBack (k : Kind σ) (x : Opaque) : Action (Resource σ) :=
  match k.codec.decode x.write with
  | .ok r => return r
  | .error e => throw (.serialization e)

def create (c : Context) (k : Kind σ) (r : Resource σ) : Action (Resource σ) := do
  let created ← Action.request k.codec ⟨c.namespaceName, .create k.version (k.write r)⟩
  match ← writeStatus c k (r.atRevision created.metadata.resourceVersion) with
  | some patched => readBack k patched
  | none => return created

def replace (c : Context) (k : Kind σ) (r : Resource σ) : Action (Resource σ) := do
  let pending := match ← writeStatus c k r with
    | some patched => r.atRevision patched.metadata.resourceVersion
    | none => r
  Action.request k.codec ⟨c.namespaceName, .replace k.version r.name (k.write pending)⟩

/-- create a resource that carries no revision, replace one that does -/
def upsert (c : Context) (k : Kind σ) (r : Resource σ) : Action (Resource σ) :=
  if r.metadata.resourceVersion.isNone then create c k r else replace c k r

end MigrationOperator.Writing
