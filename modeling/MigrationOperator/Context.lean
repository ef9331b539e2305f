/-
Where the operator works: its namespace, the secret of an older installation and the namespace that requests fall back to.
-/

namespace MigrationOperator

/-- the secret that holds the settings of an older installation -/
def defaultSecretName : String := "syndesis-global-config"

structure Context where
  namespaceName : String
  secretName : String := defaultSecretName
  /-- the namespace of objects that name none -/
  defaultNamespace : String := "default"
deriving DecidableEq

end MigrationOperator
