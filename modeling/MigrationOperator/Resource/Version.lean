/-
Schema versions of the resource kind.

Two versions are served side by side: the legacy one, kept so that older installations can be read and migrated, and the
canonical one, in which objects are stored.
-/

namespace MigrationOperator

inductive SchemaVersion where
  | legacy
  | canonical
deriving DecidableEq

/-- how the cluster addresses a version of a kind -/
structure ApiIdentity where
  group : String
  version : String
  apiVersion : String
  kind : String
  plural : String
deriving DecidableEq

namespace SchemaVersion

def group : String := "syndesis.io"

def kind : String := "Syndesis"

/-- the resource name in paths -/
def plural : String := "syndesises"

def newestFirst : List SchemaVersion := [.canonical, .legacy]

def name : SchemaVersion → String
  | .legacy => "v1alpha1"
  | .canonical => "v1beta1"

def ofName? (s : String) : Option SchemaVersion := newestFirst.find? (·.name = s)

@[simp] theorem ofName?_name (v : SchemaVersion) : ofName? v.name = some v := by cases v <;> decide

/-- group and version as objects carry them -/
def apiVersion (v : SchemaVersion) : String := group ++ "/" ++ v.name

def identity (v : SchemaVersion) : ApiIdentity := ⟨group, v.name, v.apiVersion, kind, plural⟩

end SchemaVersion

end MigrationOperator
