/-
The startup pipeline, which leaves exactly one canonical resource behind.

`fetch` lists and classifies what is stored, `discover` counts it, applies the singleton rule and loads the full objects,
`Migrator.migrate` migrates in memory and `Migrator.write` writes a migration back. A legacy resource that is not eligible
stays untouched: writing its stand-in would replace it. `run` is all of that once, and its `Report` says what was
counted and how it ended.
-/
import MigrationOperator.Migration
import MigrationOperator.Writing

namespace MigrationOperator.Pipeline

/-- list and classify the objects of the namespace; a kind that is not served has none -/
def fetch (c : Context) : Action Candidates := do
  let found ← (Action.request ObjectList.codec ⟨c.namespaceName, .list⟩).orAbsent
  match Candidates.classifyAll ((found.map (·.items)).getD []) with
  | .ok xs => return .ofList xs
  | .error e => throw (.unrecognized e)

/-- how many objects of each version were found -/
structure Census where
  legacy : Nat
  canonical : Nat
deriving DecidableEq

def Census.of (cs : Candidates) : Census := ⟨cs.legacy.length, cs.canonical.length⟩

/-- the legacy and the canonical resource of a namespace between discovery and write-back -/
structure Migrator where
  legacy : Option LegacyResource
  current : Option CanonicalResource
  /-- a migration ran that is to be written -/
  migrated : Bool := false

/-- load the object of each version; without a canonical one a stand-in takes its place -/
def load (c : Context) (cs : Candidates) : Action Migrator := do
  let legacy ← match cs.legacy.head? with
    | some x => (Action.request Legacy.kind.codec ⟨c.namespaceName, .read .legacy x.name⟩).orAbsent
    | none => pure none
  let current ← match cs.canonical.head? with
    | some x => (Action.request Canonical.kind.codec ⟨c.namespaceName, .read .canonical x.name⟩).orAbsent
    | none => pure (legacy.map (Migration.standIn · c.namespaceName))
  return { legacy, current }

/-- what was counted, if counting got that far, and how it ended -/
structure Report (α : Type) where
  census : Option Census
  result : Except OperatorError α

/-- count what is stored, apply the singleton rule and load it -/
def discover (c : Context) : Program (Report Migrator) := do
  match ← (fetch c).run with
  | .error e => return ⟨none, .error e⟩
  | .ok cs =>
    match cs.checkSingleton with
    | .error e => return ⟨some (.of cs), .error (.tooMany e)⟩
    | .ok () => return ⟨some (.of cs), ← (load c cs).run⟩

/-- how a run ended -/
inductive Outcome where
  /-- there is no resource -/
  | noResource
  /-- there is a canonical resource only -/
  | upToDate
  /-- there is a legacy resource, but it is not eligible yet -/
  | notEligible
  /-- the legacy resource was migrated and written -/
  | migrated (x : CanonicalResource)

def Outcome.label : Outcome → String
  | .noResource => "no_resource"
  | .upToDate => "up_to_date"
  | .notEligible => "not_eligible"
  | .migrated _ => "migrated"

namespace Migrator

/-- migrate the legacy resource into the canonical one in memory -/
def migrate (m : Migrator) : Migrator :=
  match m.legacy, m.current with
  | some legacy, some current =>
    match Migration.migrate? legacy current with
    | some x => { m with current := some x, migrated := true }
    | none => { m with migrated := false }
  | _, _ => m

/-- whether `migrate` migrates -/
def migrates (m : Migrator) : Bool :=
  match m.legacy, m.current with
  | some legacy, some current => Migration.isEligible legacy current
  | _, _ => false

/-- write the canonical resource if a migration ran -/
def write (c : Context) (m : Migrator) : Action (Option CanonicalResource) :=
  match m.legacy, m.current with
  | some _, some current =>
    if m.migrated then some <$> Writing.upsert c Canonical.kind current else return none
  | _, _ => return none

def outcome (m : Migrator) (written : Option CanonicalResource) : Outcome :=
  match written, m.legacy, m.current with
  | some x, _, _ => .migrated x
  | none, some _, _ => .notEligible
  | none, none, some _ => .upToDate
  | none, none, none => .noResource

end Migrator

/-- discover, migrate and write back once -/
def run (c : Context) : Program (Report Outcome) := do
  let found ← discover c
  match found.result with
  | .error e => return ⟨found.census, .error e⟩
  | .ok m =>
    let m := m.migrate
    let written ← (m.write c).run
    return ⟨found.census, written.map m.outcome⟩

end MigrationOperator.Pipeline
