/-
Adoption of installations that predate the resource.

When the secret of the namespace marks an older installation and no resource exists, the legacy resource that the settings
describe is created, so that the pipeline can pick it up. Creation writes the object and then its status; an object that
an earlier attempt left without a status is recognized, and only its status is written.
-/
import MigrationOperator.Settings
import MigrationOperator.Writing

namespace MigrationOperator

/-- how one attempt ended -/
inductive Adoption where
  /-- there is no secret, or it does not mark an installation -/
  | notLegacy
  /-- a resource exists already -/
  | alreadyManaged
  /-- a legacy resource of that name was created -/
  | adopted (name : String)
deriving DecidableEq

namespace Adoption

def label : Adoption → String
  | .notLegacy => "not_legacy"
  | .alreadyManaged => "already_managed"
  | .adopted _ => "adopted"

/-- the phase that a document states, if it states one -/
def statedPhase (x : Opaque) : Option String :=
  ((x.get? "status").bind (·.get? "phase")).bind Json.asString? |>.filter (!·.isEmpty)

/-- the object that an earlier attempt created without getting to its status, with that status: it stands alone, has the
name and the spec of the expected one, and no phase -/
def unfinished? (existing : List Opaque) (expected : LegacyResource) : Option LegacyResource :=
  match existing with
  | [x] =>
    if x.name ≠ Canonical.defaultName ∨ (statedPhase x).isSome then none
    else
      match Legacy.kind.codec.decode x.write with
      | .ok found => if found.spec = expected.spec then some { found with status := expected.status } else none
      | .error _ => none
  | _ => none

/-- the settings in the secret, if there is one -/
def readSettings (c : Context) : Action (Option Settings) := do
  let secret ← (Action.request Secret.codec ⟨c.namespaceName, .readSecret c.secretName⟩).orAbsent
  return secret.map .ofSecret

/-- every object of the namespace; a kind that is not served has none -/
def listExisting (c : Context) : Action (List Opaque) := do
  let found ← (Action.request ObjectList.codec ⟨c.namespaceName, .list⟩).orAbsent
  return (found.map (·.items)).getD []

/-- adopt an installation whose settings mark it, unless it is managed already -/
def adopt (c : Context) (settings : Settings) : Action Adoption := do
  let resource := settings.toResource c.namespaceName
  let existing ← listExisting c
  if existing.isEmpty then
    let created ← Writing.upsert c Legacy.kind resource
    return .adopted created.name
  else
    match unfinished? existing resource with
    | some pending =>
      let _ ← Writing.writeStatus c Legacy.kind pending
      return .adopted pending.name
    | none => return .alreadyManaged

/-- one attempt -/
def attempt (c : Context) : Action Adoption := do
  match ← readSettings c with
  | none => return .notLegacy
  | some settings => if settings.isLegacy then adopt c settings else return .notLegacy

end Adoption

end MigrationOperator
