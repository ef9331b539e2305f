/-
The custom resource definition that the cluster installs.

A definition publishes one or both versions of the kind, with the schemas of their codecs. Both versions are served; objects
are stored as canonical.
-/
import MigrationOperator.Resource.Canonical

namespace MigrationOperator.Definition

/-- a column of the table that lists the objects -/
structure PrinterColumn where
  name : String
  path : String
  /-- columns of a higher priority are shown on request alone -/
  priority : Nat := 0

def PrinterColumn.json (c : PrinterColumn) : Json :=
  let j := Json.object [("name", .str c.name), ("type", .str "string"), ("jsonPath", .str c.path)]
  if c.priority = 0 then j else j.set "priority" (.int c.priority)

def printerColumns : SchemaVersion → List PrinterColumn
  | .legacy => [⟨"Phase", ".status.phase", 0⟩, ⟨"Version", ".status.version", 0⟩]
  | .canonical => [⟨"Phase", ".status.phase", 0⟩, ⟨"Version", ".status.version", 0⟩, ⟨"Reason", ".status.reason", 1⟩]

/-- the schema of a spec -/
def specSchema : SchemaVersion → Schema
  | .legacy => Legacy.Spec.codec.schema
  | .canonical => Canonical.Spec.codec.schema

/-- the schema of a status -/
def statusSchema : Schema := (Codec.nullable Status.codec).schema

/-- the schema of an object; its metadata are the platform's -/
def objectSchema (v : SchemaVersion) : Schema :=
  .described "Auto-generated derived type for SyndesisSpec via `CustomResource`" <|
    .record [("spec", specSchema v), ("status", statusSchema)] ["spec"]

/-- the entry of a version -/
def version (v : SchemaVersion) (stored : Bool) : Json :=
  .object [("name", .str v.name), ("served", .bool true), ("storage", .bool stored),
    ("schema", .object [("openAPIV3Schema", (objectSchema v).json.set "title" (.str SchemaVersion.kind))]),
    ("additionalPrinterColumns", .arr ((printerColumns v).map (·.json))),
    ("subresources", .object [("status", .object [])])]

/-- the names of the kind -/
def names : Json :=
  .object [("kind", .str SchemaVersion.kind), ("plural", .str SchemaVersion.plural), ("singular", .str "syndesis"),
    ("categories", .arr []), ("shortNames", .arr [])]

/-- a definition of some versions -/
def ofVersions (versions : List Json) : Json :=
  .object [("apiVersion", .str "apiextensions.k8s.io/v1"), ("kind", .str "CustomResourceDefinition"),
    ("metadata", .object [("name", .str (SchemaVersion.plural ++ "." ++ SchemaVersion.group))]),
    ("spec", .object [("group", .str SchemaVersion.group), ("names", names), ("scope", .str "Namespaced"),
      ("versions", .arr versions)])]

/-- the definition of one version, which is then the stored one -/
def single (v : SchemaVersion) : Json := ofVersions [version v true]

/-- the definition of both versions, the stored one first -/
def merged : Json := ofVersions [version .canonical true, version .legacy false]

end MigrationOperator.Definition
