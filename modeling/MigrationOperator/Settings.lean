/-
Settings of an installation that predates the resource.

Such an installation keeps its settings as text under fixed keys in a secret. Values that are not UTF-8 are passed over and
empty ones count as absent. An installation is recognized by two keys that carry a value, and the settings describe the
legacy resource that would have been written for it.
-/
import MigrationOperator.Resource.Canonical
import MigrationOperator.Resource.Secret

namespace MigrationOperator

/-- the settings that are understood -/
inductive Setting where
  | version
  | routeHostname
  | sarProject
  | demoDataEnabled
  | maxIntegrationsPerUser
  | integrationStateCheckInterval
  | databaseUser
  | databaseName
  | databaseMemoryLimit
  | databaseVolumeCapacity
  | serverMemoryLimit
  | metaMemoryLimit
  | metaVolumeCapacity
  | prometheusMemoryLimit
  | prometheusVolumeCapacity
  | managementUrlFor3scale
deriving DecidableEq

/-- the key a setting is kept under -/
def Setting.key : Setting → String
  | .version => "SYNDESIS_VERSION"
  | .routeHostname => "ROUTE_HOSTNAME"
  | .sarProject => "SAR_PROJECT"
  | .demoDataEnabled => "DEMO_DATA_ENABLED"
  | .maxIntegrationsPerUser => "MAX_INTEGRATIONS_PER_USER"
  | .integrationStateCheckInterval => "INTEGRATION_STATE_CHECK_INTERVAL"
  | .databaseUser => "POSTGRESQL_USER"
  | .databaseName => "POSTGRESQL_DATABASE"
  | .databaseMemoryLimit => "POSTGRESQL_MEMORY_LIMIT"
  | .databaseVolumeCapacity => "POSTGRESQL_VOLUME_CAPACITY"
  | .serverMemoryLimit => "SERVER_MEMORY_LIMIT"
  | .metaMemoryLimit => "META_MEMORY_LIMIT"
  | .metaVolumeCapacity => "META_VOLUME_CAPACITY"
  | .prometheusMemoryLimit => "PROMETHEUS_MEMORY_LIMIT"
  | .prometheusVolumeCapacity => "PROMETHEUS_VOLUME_CAPACITY"
  | .managementUrlFor3scale => "OPENSHIFT_MANAGEMENT_URL_FOR3SCALE"

/-! ## Values in text -/

/-- digits in base ten, at least one -/
def naturalOfDigits? (cs : List Char) : Option Nat :=
  if cs ≠ [] ∧ cs.all Char.isDigit then some (cs.foldl (fun n c => n * 10 + (c.toNat - 48)) 0) else none

/-- an integer in base ten with an optional sign -/
def integerOfText? (s : String) : Option Int :=
  match s.toList with
  | '-' :: cs => (naturalOfDigits? cs).map (fun n => -(n : Int))
  | '+' :: cs => (naturalOfDigits? cs).map (fun n => (n : Int))
  | cs => (naturalOfDigits? cs).map (fun n => (n : Int))

/-- an integer of 32 bits -/
def int32OfText? (s : String) : Option Int32 :=
  (integerOfText? s).bind fun n => if Int32.minValue.toInt ≤ n ∧ n ≤ Int32.maxValue.toInt then some (.ofInt n) else none

def flagOfText? : String → Option Bool
  | "true" => some true
  | "false" => some false
  | _ => none

/-! ## Settings -/

/-- text by key -/
structure Settings where
  values : StringMap String

namespace Settings

/-- the text among byte strings -/
def texts (es : List (String × ByteArray)) : List (String × String) :=
  es.filterMap fun (k, bytes) => (String.fromUTF8? bytes).map (k, ·)

def ofSecret (s : Secret) : Settings := ⟨.ofList (texts (s.data.getD .empty).entries)⟩

/-- the value under a key, unless it is empty -/
def get? (s : Settings) (key : String) : Option String := (s.values.get? key).filter (!·.isEmpty)

def value? (s : Settings) (x : Setting) : Option String := s.get? x.key

/-- the value of a setting, empty when there is none -/
def text (s : Settings) (x : Setting) : String := (s.value? x).getD ""

/-- the settings that mark an installation -/
def markers : List Setting := [.version, .routeHostname]

/-- the settings are those of an installation -/
def isLegacy (s : Settings) : Bool := markers.all fun x => (s.value? x).isSome

/-- a memory limit, if the setting has a value -/
def memoryLimits (s : Settings) (x : Setting) : Option (StringMap Quantity) :=
  (s.value? x).map fun t => .singleton Legacy.memoryKey ⟨t⟩

/-- the legacy spec that describes the installation; what does not read as a value is left out -/
def spec (s : Settings) : Legacy.Spec where
  routeHostname := s.text .routeHostname
  sarNamespace := s.text .sarProject
  demoData := (s.value? .demoDataEnabled).bind flagOfText?
  integration :=
    { limit := (s.value? .maxIntegrationsPerUser).bind int32OfText?
      stateCheckInterval := (s.value? .integrationStateCheckInterval).bind int32OfText? }
  components :=
    { db :=
        { user := s.text .databaseUser
          database := s.text .databaseName
          resources :=
            { limits := s.memoryLimits .databaseMemoryLimit
              volumeCapacity := s.text .databaseVolumeCapacity } }
      server :=
        { resources := { limits := s.memoryLimits .serverMemoryLimit }
          features := { managementUrlFor3scale := s.text .managementUrlFor3scale } }
      metadata :=
        { resources :=
            { limits := s.memoryLimits .metaMemoryLimit
              volumeCapacity := s.text .metaVolumeCapacity } }
      prometheus :=
        { resources :=
            { limits := s.memoryLimits .prometheusMemoryLimit
              volumeCapacity := s.text .prometheusVolumeCapacity } } }

/-- the status an adopted installation starts with -/
def status (s : Settings) : Status where
  phase := .upgradingLegacy
  reason := .notYetCreated
  version := s.text .version

/-- the legacy resource that describes the installation -/
def toResource (s : Settings) (namespaceName : String) : LegacyResource where
  metadata := { name := some Canonical.defaultName, namespaceName := some namespaceName }
  spec := s.spec
  status := some s.status

end Settings

end MigrationOperator
