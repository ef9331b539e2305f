/-
The canonical schema, in which objects are stored.

Records refuse unknown fields, so a document in the shape of an older schema fails to decode here. The flag that asks for
a migration is written even when it is off; a spec that was written here is therefore never read as a legacy one.
-/
import MigrationOperator.Resource.Addons

namespace MigrationOperator

namespace Canonical

structure BackupConfig where
  schedule : String := ""
deriving DecidableEq, Inhabited

structure OauthConfiguration where
  disableSarCheck : Bool := false
  sarNamespace : String := ""
deriving DecidableEq, Inhabited

structure ResourcesWithVolume where
  memory : String := ""
  volumeCapacity : String := ""
deriving DecidableEq, Inhabited

structure ResourcesWithPersistentVolume where
  memory : String := ""
  volumeCapacity : String := ""
  volumeName : String := ""
  volumeAccessMode : String := ""
  volumeStorageClass : String := ""
  /-- labels that a volume provisioned beforehand has to carry -/
  volumeLabels : StringMap String := .empty
deriving DecidableEq, Inhabited

structure VolumeOnlyResources where
  volumeCapacity : String := ""
deriving DecidableEq, Inhabited

structure ServerFeatures where
  /-- the most integrations a single user may create -/
  integrationLimit : Int32 := 0
  /-- seconds between checks of the state of integrations -/
  integrationStateCheckInterval : Int32 := 0
  deployIntegrations : Bool := false
  /-- additional repositories, name to address; unset rather than empty -/
  mavenRepositories : Option (StringMap String) := none
  managementUrlFor3scale : String := ""
deriving DecidableEq, Inhabited

structure ServerConfiguration where
  resources : Resources := {}
  features : ServerFeatures := {}
deriving DecidableEq, Inhabited

structure MetaConfiguration where
  resources : ResourcesWithVolume := {}
deriving DecidableEq, Inhabited

structure DatabaseConfiguration where
  user : String := ""
  name : String := ""
  url : String := ""
  /-- address of an external database, used instead of the bundled one -/
  externalDbUrl : String := ""
  resources : ResourcesWithPersistentVolume := {}
deriving DecidableEq, Inhabited

structure PrometheusConfiguration where
  rules : String := ""
  resources : ResourcesWithVolume := {}
deriving DecidableEq, Inhabited

structure GrafanaConfiguration where
  resources : Resources := {}
deriving DecidableEq, Inhabited

structure UpgradeConfiguration where
  resources : VolumeOnlyResources := {}
deriving DecidableEq, Inhabited

structure ComponentsSpec where
  oauth : OauthConfiguration := {}
  server : ServerConfiguration := {}
  metadata : MetaConfiguration := {}
  database : DatabaseConfiguration := {}
  prometheus : PrometheusConfiguration := {}
  grafana : GrafanaConfiguration := {}
  upgrade : UpgradeConfiguration := {}
deriving DecidableEq, Inhabited

structure Spec where
  backup : BackupConfig := {}
  routeHostname : String := ""
  demoData : Bool := false
  components : ComponentsSpec := {}
  addons : Addons := {}
  /-- an older resource is to be migrated into this one at the next start -/
  forceMigration : Bool := false
deriving DecidableEq, Inhabited

/-- the name of an object when no legacy name can be taken over -/
def defaultName : String := "app"

/-! ## Codecs -/

def BackupConfig.codec : Codec BackupConfig :=
  .record (.closed "BackupConfig")
    (.cons (.text "schedule" (some "Backup cron schedule, e.g. `daily` or `every 3m`.")) .nil)
    (fun x => (x.schedule, ()))
    (fun (schedule, ()) => ⟨schedule⟩)

def OauthConfiguration.codec : Codec OauthConfiguration :=
  .record (.closed "OauthConfiguration")
    (.cons (.flag "disableSarCheck" (some "Disable subject access review checks altogether.")) <|
     .cons (.text "sarNamespace"
        (some "Users need to be able to list pods in this namespace to log in.")) .nil)
    (fun x => (x.disableSarCheck, x.sarNamespace, ()))
    (fun (disableSarCheck, sarNamespace, ()) => ⟨disableSarCheck, sarNamespace⟩)

def ResourcesWithVolume.codec : Codec ResourcesWithVolume :=
  .record (.closed "ResourcesWithVolume")
    (.cons (.text "memory") <|
     .cons (.text "volumeCapacity") .nil)
    (fun x => (x.memory, x.volumeCapacity, ()))
    (fun (memory, volumeCapacity, ()) => ⟨memory, volumeCapacity⟩)

def ResourcesWithPersistentVolume.codec : Codec ResourcesWithPersistentVolume :=
  .record (.closed "ResourcesWithPersistentVolume")
    (.cons (.text "memory") <|
     .cons (.text "volumeCapacity") <|
     .cons (.text "volumeName") <|
     .cons (.text "volumeAccessMode" (some "One of `ReadWriteOnce`, `ReadOnlyMany`, `ReadWriteMany`.")) <|
     .cons (.text "volumeStorageClass") <|
     .cons (.table "volumeLabels" .text (some "Labels a pre-provisioned volume must carry to be bound.")) .nil)
    (fun x => (x.memory, x.volumeCapacity, x.volumeName, x.volumeAccessMode, x.volumeStorageClass, x.volumeLabels, ()))
    (fun (memory, volumeCapacity, volumeName, volumeAccessMode, volumeStorageClass, volumeLabels, ()) =>
      ⟨memory, volumeCapacity, volumeName, volumeAccessMode, volumeStorageClass, volumeLabels⟩)

def VolumeOnlyResources.codec : Codec VolumeOnlyResources :=
  .record (.closed "VolumeOnlyResources")
    (.cons (.text "volumeCapacity") .nil)
    (fun x => (x.volumeCapacity, ()))
    (fun (volumeCapacity, ()) => ⟨volumeCapacity⟩)

def ServerFeatures.codec : Codec ServerFeatures :=
  .record (.closed "ServerFeatures")
    (.cons (.int32 "integrationLimit" (some "Maximum number of integrations a single user may create.")) <|
     .cons (.int32 "integrationStateCheckInterval" (some "Interval in seconds for checking integration state.")) <|
     .cons (.flag "deployIntegrations") <|
     .cons (.optional "mavenRepositories" (.table .text)
        (some ("Additional maven repositories, name to URL. Left unset rather than\n" ++
          "empty so that an untouched resource does not show a diff."))) <|
     .cons (.text "managementUrlFor3scale" (some "3scale management URL.")) .nil)
    (fun x => (x.integrationLimit, x.integrationStateCheckInterval, x.deployIntegrations, x.mavenRepositories,
      x.managementUrlFor3scale, ()))
    (fun (integrationLimit, integrationStateCheckInterval, deployIntegrations, mavenRepositories,
        managementUrlFor3scale, ()) =>
      ⟨integrationLimit, integrationStateCheckInterval, deployIntegrations, mavenRepositories, managementUrlFor3scale⟩)

def ServerConfiguration.codec : Codec ServerConfiguration :=
  .record (.closed "ServerConfiguration")
    (.cons (.nested "resources" Resources.codec) <|
     .cons (.nested "features" ServerFeatures.codec) .nil)
    (fun x => (x.resources, x.features, ()))
    (fun (resources, features, ()) => ⟨resources, features⟩)

def MetaConfiguration.codec : Codec MetaConfiguration :=
  .record (.closed "MetaConfiguration")
    (.cons (.nested "resources" ResourcesWithVolume.codec) .nil)
    (fun x => (x.resources, ()))
    (fun (resources, ()) => ⟨resources⟩)

def DatabaseConfiguration.codec : Codec DatabaseConfiguration :=
  .record (.closed "DatabaseConfiguration")
    (.cons (.text "user" (some "PostgreSQL user used to access the database.")) <|
     .cons (.text "name" (some "Name of the PostgreSQL database.")) <|
     .cons (.text "url" (some "Host and port of the database.")) <|
     .cons (.text "externalDbURL" (some "Use an external database instead of the bundled one.")) <|
     .cons (.nested "resources" ResourcesWithPersistentVolume.codec) .nil)
    (fun x => (x.user, x.name, x.url, x.externalDbUrl, x.resources, ()))
    (fun (user, name, url, externalDbUrl, resources, ()) => ⟨user, name, url, externalDbUrl, resources⟩)

def PrometheusConfiguration.codec : Codec PrometheusConfiguration :=
  .record (.closed "PrometheusConfiguration")
    (.cons (.text "rules") <|
     .cons (.nested "resources" ResourcesWithVolume.codec) .nil)
    (fun x => (x.rules, x.resources, ()))
    (fun (rules, resources, ()) => ⟨rules, resources⟩)

def GrafanaConfiguration.codec : Codec GrafanaConfiguration :=
  .record (.closed "GrafanaConfiguration")
    (.cons (.nested "resources" Resources.codec) .nil)
    (fun x => (x.resources, ()))
    (fun (resources, ()) => ⟨resources⟩)

def UpgradeConfiguration.codec : Codec UpgradeConfiguration :=
  .record (.closed "UpgradeConfiguration")
    (.cons (.nested "resources" VolumeOnlyResources.codec) .nil)
    (fun x => (x.resources, ()))
    (fun (resources, ()) => ⟨resources⟩)

def ComponentsSpec.codec : Codec ComponentsSpec :=
  .record (.closed "ComponentsSpec")
    (.cons (.nested "oauth" OauthConfiguration.codec) <|
     .cons (.nested "server" ServerConfiguration.codec) <|
     .cons (.nested "meta" MetaConfiguration.codec) <|
     .cons (.nested "database" DatabaseConfiguration.codec) <|
     .cons (.nested "prometheus" PrometheusConfiguration.codec) <|
     .cons (.nested "grafana" GrafanaConfiguration.codec) <|
     .cons (.nested "upgrade" UpgradeConfiguration.codec) .nil)
    (fun x => (x.oauth, x.server, x.metadata, x.database, x.prometheus, x.grafana, x.upgrade, ()))
    (fun (oauth, server, metadata, database, prometheus, grafana, upgrade, ()) =>
      ⟨oauth, server, metadata, database, prometheus, grafana, upgrade⟩)

def Spec.codec : Codec Spec :=
  .record (.closed "SyndesisSpec")
    (.cons (.nested "backup" BackupConfig.codec (some "Scheduled backups.")) <|
     .cons (.text "routeHostname" (some "External hostname of the installation.")) <|
     .cons (.flag "demoData" (some "Install the sample database and demo data.")) <|
     .cons (.nested "components" ComponentsSpec.codec (some "Configuration of the core components.")) <|
     .cons (.nested "addons" Addons.codec (some "Optional features that can be switched on.")) <|
     .cons (.nested "forceMigration" .flag
        (some ("Migrate an existing older resource into this one on the next operator\n" ++
          "start. Cleared once the migration ran."))) .nil)
    (fun x => (x.backup, x.routeHostname, x.demoData, x.components, x.addons, x.forceMigration, ()))
    (fun (backup, routeHostname, demoData, components, addons, forceMigration, ()) =>
      ⟨backup, routeHostname, demoData, components, addons, forceMigration⟩)

def kind : Kind Spec := ⟨.canonical, Spec.codec⟩

end Canonical

/-- an object of the canonical schema -/
abbrev CanonicalResource := Resource Canonical.Spec

end MigrationOperator
