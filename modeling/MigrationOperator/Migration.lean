/-
Migration of a legacy resource into a canonical one.

A migration runs for an installed legacy resource whose canonical counterpart asks for it, and it takes the request back, so
it runs once. What the legacy resource leaves empty does not touch the canonical one: a text is copied when it is not
empty, an optional value and a memory limit when they are there, and an addon is switched on but never off.
-/
import MigrationOperator.Classification

namespace MigrationOperator.Migration

/-- the legacy resource is installed and the canonical one asks for it -/
def isEligible (legacy : LegacyResource) (current : CanonicalResource) : Bool :=
  legacy.phase = .installed && current.spec.forceMigration

/-- the note that a migration leaves in the status -/
def description : String :=
  "App migrated from " ++ SchemaVersion.legacy.apiVersion ++ " to " ++ SchemaVersion.canonical.apiVersion

/-! ## Rules for one field -/

/-- the source, unless it is empty -/
def copyNonEmpty (source target : String) : String := if source.isEmpty then target else source

/-- the memory limit as it is written, if there is one -/
def copyMemory (limit : Option Quantity) (target : String) : String :=
  match limit with
  | some q => q.text
  | none => target

/-- a map, unless it is empty -/
def copyTable (source : StringMap String) (target : Option (StringMap String)) : Option (StringMap String) :=
  if source.isEmpty then target else some source

/-- the parameters switch the addon on -/
def asksFor (parameters : Legacy.AddonParameters) : Bool := parameters.get? "enabled" = some "true"

/-- switch a named addon on where its parameters ask for it; unknown names are dropped -/
def copyAddon (x : Canonical.Addons) (name : String) (parameters : Legacy.AddonParameters) : Canonical.Addons :=
  match Canonical.Addon.ofName? name with
  | some a => if asksFor parameters then x.setEnabled a true else x
  | none => x

/-! ## Rules for the parts of a spec -/

def addons (old : StringMap Legacy.AddonParameters) (x : Canonical.Addons) : Canonical.Addons :=
  old.entries.foldl (fun x e => copyAddon x e.1 e.2) x

def serverFeatures (old : Legacy.Spec) (x : Canonical.ServerFeatures) : Canonical.ServerFeatures where
  integrationLimit := old.integration.limit.getD x.integrationLimit
  integrationStateCheckInterval := old.integration.stateCheckInterval.getD x.integrationStateCheckInterval
  deployIntegrations := old.deployIntegrations.getD x.deployIntegrations
  mavenRepositories := copyTable old.mavenRepositories x.mavenRepositories
  managementUrlFor3scale :=
    copyNonEmpty old.components.server.features.managementUrlFor3scale x.managementUrlFor3scale

def server (old : Legacy.Spec) (x : Canonical.ServerConfiguration) : Canonical.ServerConfiguration where
  resources := ⟨copyMemory old.components.server.resources.memoryLimit x.resources.memory⟩
  features := serverFeatures old x.features

def database (old : Legacy.DbConfiguration) (x : Canonical.DatabaseConfiguration) : Canonical.DatabaseConfiguration :=
  { x with
    name := copyNonEmpty old.database x.name
    user := copyNonEmpty old.user x.user
    resources := { x.resources with
      memory := copyMemory old.resources.memoryLimit x.resources.memory
      volumeCapacity := copyNonEmpty old.resources.volumeCapacity x.resources.volumeCapacity } }

def oauth (old : Legacy.Spec) (x : Canonical.OauthConfiguration) : Canonical.OauthConfiguration where
  disableSarCheck := old.components.oauth.disableSarCheck.getD x.disableSarCheck
  sarNamespace := copyNonEmpty old.sarNamespace x.sarNamespace

def volume (old : Legacy.ResourcesWithVolume) (x : Canonical.ResourcesWithVolume) : Canonical.ResourcesWithVolume where
  memory := copyMemory old.memoryLimit x.memory
  volumeCapacity := copyNonEmpty old.volumeCapacity x.volumeCapacity

def components (old : Legacy.Spec) (x : Canonical.ComponentsSpec) : Canonical.ComponentsSpec :=
  { x with
    oauth := oauth old x.oauth
    server := server old x.server
    metadata := ⟨volume old.components.metadata.resources x.metadata.resources⟩
    database := database old.components.db x.database
    prometheus := { x.prometheus with
      resources := volume old.components.prometheus.resources x.prometheus.resources }
    grafana := ⟨⟨copyMemory old.components.grafana.resources.memoryLimit x.grafana.resources.memory⟩⟩ }

def spec (old : Legacy.Spec) (x : Canonical.Spec) : Canonical.Spec :=
  { x with
    routeHostname := copyNonEmpty old.routeHostname x.routeHostname
    demoData := old.demoData.getD x.demoData
    components := components old x.components
    addons := addons old.addons x.addons
    forceMigration := false }

/-- the status after a migration; what it does not name stays -/
def status (old : Option Status) (x : Option Status) : Status :=
  { x.getD {} with
    version := (old.map (·.version)).getD ""
    phase := .installed
    reason := .migrated
    description }

/-! ## The migration -/

/-- the canonical resource with the legacy one migrated into it -/
def apply (legacy : LegacyResource) (current : CanonicalResource) : CanonicalResource :=
  { current with
    spec := spec legacy.spec current.spec
    status := some (status legacy.status current.status) }

/-- migrate an eligible pair; none when nothing is to be done -/
def migrate? (legacy : LegacyResource) (current : CanonicalResource) : Option CanonicalResource :=
  if isEligible legacy current then some (apply legacy current) else none

/-- the canonical resource that stands in for a legacy one when there is none: the same object, read at the same
revision, asking for migration -/
def standIn (legacy : LegacyResource) (namespaceName : String) : CanonicalResource where
  metadata :=
    { name := some (legacy.metadata.name.getD Canonical.defaultName)
      namespaceName := some namespaceName
      resourceVersion := legacy.metadata.resourceVersion }
  spec := { forceMigration := true }
  status := none

/-! ## Laws -/

theorem isEligible_apply (legacy other : LegacyResource) (current : CanonicalResource) :
    isEligible other (apply legacy current) = false := by
  simp [isEligible, apply, spec]

end MigrationOperator.Migration
