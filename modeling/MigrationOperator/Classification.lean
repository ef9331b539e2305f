/-
Telling schema versions apart.

The cluster labels every object with the version it was asked for, so the label says nothing about the schema a document
was written in. A document is decoded against the canonical schema first and against the legacy one second, and the first
that fits decides; a document that fits neither is reported with both reasons.
-/
import MigrationOperator.Resource.Canonical
import MigrationOperator.Resource.Opaque

namespace MigrationOperator

/-- a document with the schema it decoded as -/
inductive Classified where
  | canonical (x : CanonicalResource)
  | legacy (x : LegacyResource)

namespace Classified

def version : Classified → SchemaVersion
  | .canonical _ => .canonical
  | .legacy _ => .legacy

def name : Classified → String
  | .canonical x => x.name
  | .legacy x => x.name

def phase : Classified → Phase
  | .canonical x => x.phase
  | .legacy x => x.phase

def write : Classified → Json
  | .canonical x => Canonical.kind.write x
  | .legacy x => Legacy.kind.write x

end Classified

/-- a document that fits no schema, and why -/
structure Unrecognized where
  name : String
  canonical : DecodeError
  legacy : DecodeError
deriving DecidableEq

def Unrecognized.message (e : Unrecognized) : String :=
  e.name ++ " matches no known " ++ SchemaVersion.kind ++ " schema (" ++
    SchemaVersion.canonical.name ++ ": " ++ e.canonical.message ++ "; " ++
    SchemaVersion.legacy.name ++ ": " ++ e.legacy.message ++ ")"

/-- the schema of a document, newest first -/
def classifyJson (name : String) (j : Json) : Except Unrecognized Classified :=
  match Canonical.kind.codec.decode j with
  | .ok x => .ok (.canonical x)
  | .error canonical =>
    match Legacy.kind.codec.decode j with
    | .ok x => .ok (.legacy x)
    | .error legacy => .error ⟨name, canonical, legacy⟩

/-- the schema of an object -/
def classify (x : Opaque) : Except Unrecognized Classified := classifyJson x.name x.write

end MigrationOperator
