/-
The legacy schema.

Addons are an open map of text parameters, and limits are resource quantities by resource name. Records refuse unknown
fields, so a canonical object that fails its own decoding cannot be mistaken for a legacy one.
-/
import MigrationOperator.Resource.Basic

namespace MigrationOperator

/-- an amount of a resource, as written -/
structure Quantity where
  text : String
deriving DecidableEq, Inhabited

/-- numbers are read as their decimal text -/
def Quantity.codec : Codec Quantity where
  schema := .quantity
  read
    | .str s => .ok ⟨s⟩
    | .int n => .ok ⟨toString n⟩
    | .float x => .ok ⟨Layout.plain.render x⟩
    | d => .error (.mismatch d "Quantity")
  write q := .str q.text

namespace Legacy

structure IntegrationSpec where
  /-- the most integrations a single user may create -/
  limit : Option Int32 := none
  /-- seconds between checks of the state of integrations -/
  stateCheckInterval : Option Int32 := none
deriving DecidableEq, Inhabited

/-- compute requirements by resource name -/
structure Resources where
  limits : Option (StringMap Quantity) := none
  requests : Option (StringMap Quantity) := none
deriving DecidableEq, Inhabited

structure ResourcesWithVolume where
  limits : Option (StringMap Quantity) := none
  requests : Option (StringMap Quantity) := none
  volumeCapacity : String := ""
deriving DecidableEq, Inhabited

structure ServerFeatures where
  exposeVia3Scale : Bool := false
  managementUrlFor3scale : String := ""
deriving DecidableEq, Inhabited

structure ServerConfiguration where
  resources : Resources := {}
  features : ServerFeatures := {}
deriving DecidableEq, Inhabited

structure MetaConfiguration where
  resources : ResourcesWithVolume := {}
deriving DecidableEq, Inhabited

structure DbConfiguration where
  user : String := ""
  database : String := ""
  imageStreamNamespace : String := ""
  resources : ResourcesWithVolume := {}
deriving DecidableEq, Inhabited

structure PrometheusConfiguration where
  resources : ResourcesWithVolume := {}
deriving DecidableEq, Inhabited

structure GrafanaConfiguration where
  resources : Resources := {}
deriving DecidableEq, Inhabited

structure OauthConfiguration where
  disableSarCheck : Option Bool := none
deriving DecidableEq, Inhabited

structure ComponentsSpec where
  server : ServerConfiguration := {}
  metadata : MetaConfiguration := {}
  db : DbConfiguration := {}
  prometheus : PrometheusConfiguration := {}
  grafana : GrafanaConfiguration := {}
  oauth : OauthConfiguration := {}
deriving DecidableEq, Inhabited

/-- parameters of one addon -/
abbrev AddonParameters := StringMap String

structure Spec where
  routeHostname : String := ""
  demoData : Option Bool := none
  deployIntegrations : Option Bool := none
  testSupport : Option Bool := none
  imageStreamNamespace : String := ""
  integration : IntegrationSpec := {}
  registry : String := ""
  components : ComponentsSpec := {}
  openShiftMaster : String := ""
  openShiftConsoleUrl : String := ""
  /-- namespace of subject access reviews -/
  sarNamespace : String := ""
  /-- parameters by addon name -/
  addons : StringMap AddonParameters := .empty
  mavenRepositories : StringMap String := .empty
deriving DecidableEq, Inhabited

/-! ## Memory limits -/

/-- the resource name of memory -/
def memoryKey : String := "memory"

def Resources.memoryLimit (r : Resources) : Option Quantity := r.limits.bind (·.get? memoryKey)

def ResourcesWithVolume.memoryLimit (r : ResourcesWithVolume) : Option Quantity := r.limits.bind (·.get? memoryKey)

/-! ## Codecs -/

def IntegrationSpec.codec : Codec IntegrationSpec :=
  .record (.closed "IntegrationSpec")
    (.cons (.optional "limit" .int32 (some "Maximum number of integrations a single user may create.")) <|
     .cons (.optional "stateCheckInterval" .int32 (some "Interval in seconds for checking integration state.")) .nil)
    (fun x => (x.limit, x.stateCheckInterval, ()))
    (fun (limit, stateCheckInterval, ()) => ⟨limit, stateCheckInterval⟩)

def Resources.codec : Codec Resources :=
  .record (.closed "Resources")
    (.cons (.optional "limits" (.table Quantity.codec)) <|
     .cons (.optional "requests" (.table Quantity.codec)) .nil)
    (fun x => (x.limits, x.requests, ()))
    (fun (limits, requests, ()) => ⟨limits, requests⟩)
    (some "Kubernetes-style compute requirements keyed by resource name.")

def ResourcesWithVolume.codec : Codec ResourcesWithVolume :=
  .record (.closed "ResourcesWithVolume")
    (.cons (.optional "limits" (.table Quantity.codec)) <|
     .cons (.optional "requests" (.table Quantity.codec)) <|
     .cons (.text "volumeCapacity") .nil)
    (fun x => (x.limits, x.requests, x.volumeCapacity, ()))
    (fun (limits, requests, volumeCapacity, ()) => ⟨limits, requests, volumeCapacity⟩)

def ServerFeatures.codec : Codec ServerFeatures :=
  .record (.closed "ServerFeatures")
    (.cons (.flag "exposeVia3Scale") <|
     .cons (.text "managementUrlFor3scale") .nil)
    (fun x => (x.exposeVia3Scale, x.managementUrlFor3scale, ()))
    (fun (exposeVia3Scale, managementUrlFor3scale, ()) => ⟨exposeVia3Scale, managementUrlFor3scale⟩)

def ServerConfiguration.codec : Codec ServerConfiguration :=
  .record (.closed "ServerConfiguration")
    (.cons (.nested "resources" Resources.codec) <|
     .cons (.nested "features" ServerFeatures.codec) .nil)
    (fun x => (x.resources, x.features, ()))
    (fun (resources, features, ()) => ⟨resources, features⟩)

def MetaConfiguration.codec : Codec MetaConfiguration :=
  .record (.closed "MetaConfiguration")
    (.cons (.nested "resources" ResourcesWithVolume.codec) .nil)
    (fun x => (x.resources, ()))
    (fun (resources, ()) => ⟨resources⟩)

def DbConfiguration.codec : Codec DbConfiguration :=
  .record (.closed "DbConfiguration")
    (.cons (.text "user") <|
     .cons (.text "database") <|
     .cons (.text "imageStreamNamespace") <|
     .cons (.nested "resources" ResourcesWithVolume.codec) .nil)
    (fun x => (x.user, x.database, x.imageStreamNamespace, x.resources, ()))
    (fun (user, database, imageStreamNamespace, resources, ()) => ⟨user, database, imageStreamNamespace, resources⟩)

def PrometheusConfiguration.codec : Codec PrometheusConfiguration :=
  .record (.closed "PrometheusConfiguration")
    (.cons (.nested "resources" ResourcesWithVolume.codec) .nil)
    (fun x => (x.resources, ()))
    (fun (resources, ()) => ⟨resources⟩)

def GrafanaConfiguration.codec : Codec GrafanaConfiguration :=
  .record (.closed "GrafanaConfiguration")
    (.cons (.nested "resources" Resources.codec) .nil)
    (fun x => (x.resources, ()))
    (fun (resources, ()) => ⟨resources⟩)

def OauthConfiguration.codec : Codec OauthConfiguration :=
  .record (.closed "OauthConfiguration")
    (.cons (.optional "disableSarCheck" .flag) .nil)
    (fun x => (x.disableSarCheck, ()))
    (fun (disableSarCheck, ()) => ⟨disableSarCheck⟩)

def ComponentsSpec.codec : Codec ComponentsSpec :=
  .record (.closed "ComponentsSpec")
    (.cons (.nested "server" ServerConfiguration.codec) <|
     .cons (.nested "meta" MetaConfiguration.codec) <|
     .cons (.nested "db" DbConfiguration.codec) <|
     .cons (.nested "prometheus" PrometheusConfiguration.codec) <|
     .cons (.nested "grafana" GrafanaConfiguration.codec) <|
     .cons (.nested "oauth" OauthConfiguration.codec) .nil)
    (fun x => (x.server, x.metadata, x.db, x.prometheus, x.grafana, x.oauth, ()))
    (fun (server, metadata, db, prometheus, grafana, oauth, ()) => ⟨server, metadata, db, prometheus, grafana, oauth⟩)

def Spec.codec : Codec Spec :=
  .record (.closed "SyndesisSpec")
    (.cons (.text "routeHostname" (some "External hostname of the installation.")) <|
     .cons (.optional "demoData" .flag) <|
     .cons (.optional "deployIntegrations" .flag) <|
     .cons (.optional "testSupport" .flag) <|
     .cons (.text "imageStreamNamespace") <|
     .cons (.nested "integration" IntegrationSpec.codec) <|
     .cons (.text "registry") <|
     .cons (.nested "components" ComponentsSpec.codec) <|
     .cons (.text "openShiftMaster") <|
     .cons (.text "openShiftConsoleUrl") <|
     .cons (.text "sarNamespace" (some "Namespace used for subject access review checks.")) <|
     .cons (.table "addons" (.table .text)
        (some "Addon name to addon parameters, e.g. `\x7b\"todo\": \x7b\"enabled\": \"true\"\x7d\x7d`.")) <|
     .cons (.table "mavenRepositories" .text) .nil)
    (fun x => (x.routeHostname, x.demoData, x.deployIntegrations, x.testSupport, x.imageStreamNamespace, x.integration,
      x.registry, x.components, x.openShiftMaster, x.openShiftConsoleUrl, x.sarNamespace, x.addons,
      x.mavenRepositories, ()))
    (fun (routeHostname, demoData, deployIntegrations, testSupport, imageStreamNamespace, integration, registry,
        components, openShiftMaster, openShiftConsoleUrl, sarNamespace, addons, mavenRepositories, ()) =>
      ⟨routeHostname, demoData, deployIntegrations, testSupport, imageStreamNamespace, integration, registry,
        components, openShiftMaster, openShiftConsoleUrl, sarNamespace, addons, mavenRepositories⟩)

def kind : Kind Spec := ⟨.legacy, Spec.codec⟩

end Legacy

/-- an object of the legacy schema -/
abbrev LegacyResource := Resource Legacy.Spec

end MigrationOperator
