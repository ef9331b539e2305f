/-
The observed state of an installation, shared by all schema versions.

Phase and reason are open: a text that is none of the known names is kept as it is, so a status written by a newer
operator still decodes and is written back unchanged. `Phase.asString_ofString` and `Reason.asString_ofString` say so.
-/
import MigrationOperator.Codec.Record

namespace MigrationOperator

/-- lifecycle phase of an installation -/
inductive Phase where
  /-- written as the empty text -/
  | missing
  | installing
  | starting
  | startupFailed
  | installed
  | notInstalled
  | upgrading
  | postUpgradeRun
  | postUpgradeRunSucceed
  | upgradeFailureBackoff
  | upgradeFailed
  /-- an installation without a resource was adopted and awaits its first reconcile -/
  | upgradingLegacy
  | other (name : String)
deriving DecidableEq, Inhabited

namespace Phase

def asString : Phase → String
  | .missing => ""
  | .installing => "Installing"
  | .starting => "Starting"
  | .startupFailed => "StartupFailed"
  | .installed => "Installed"
  | .notInstalled => "NotInstalled"
  | .upgrading => "Upgrading"
  | .postUpgradeRun => "PostUpgradeRun"
  | .postUpgradeRunSucceed => "PostUpgradeRunSucceed"
  | .upgradeFailureBackoff => "UpgradeFailureBackoff"
  | .upgradeFailed => "UpgradeFailed"
  | .upgradingLegacy => "UpgradingLegacy"
  | .other name => name

def ofString : String → Phase
  | "" => .missing
  | "Installing" => .installing
  | "Starting" => .starting
  | "StartupFailed" => .startupFailed
  | "Installed" => .installed
  | "NotInstalled" => .notInstalled
  | "Upgrading" => .upgrading
  | "PostUpgradeRun" => .postUpgradeRun
  | "PostUpgradeRunSucceed" => .postUpgradeRunSucceed
  | "UpgradeFailureBackoff" => .upgradeFailureBackoff
  | "UpgradeFailed" => .upgradeFailed
  | "UpgradingLegacy" => .upgradingLegacy
  | name => .other name

def isMissing (p : Phase) : Bool := p = .missing

theorem asString_ofString (s : String) : (ofString s).asString = s := by
  unfold ofString
  split <;> rfl

def codec : Codec Phase := Codec.text.imap ofString asString

end Phase

/-- machine-readable reason of a status -/
inductive Reason where
  /-- written as the empty text -/
  | missing
  | duplicate
  | deploymentNotReady
  | upgradeFailed
  | tooManyUpgradeAttempts
  | postUpgradeRun
  | migrated
  | notYetCreated
  | other (name : String)
deriving DecidableEq, Inhabited

namespace Reason

def asString : Reason → String
  | .missing => ""
  | .duplicate => "Duplicate"
  | .deploymentNotReady => "DeploymentNotReady"
  | .upgradeFailed => "UpgradeFailed"
  | .tooManyUpgradeAttempts => "TooManyUpgradeAttempts"
  | .postUpgradeRun => "PostUpgradeRun"
  | .migrated => "Migrated"
  | .notYetCreated => "NotYetCreated"
  | .other name => name

def ofString : String → Reason
  | "" => .missing
  | "Duplicate" => .duplicate
  | "DeploymentNotReady" => .deploymentNotReady
  | "UpgradeFailed" => .upgradeFailed
  | "TooManyUpgradeAttempts" => .tooManyUpgradeAttempts
  | "PostUpgradeRun" => .postUpgradeRun
  | "Migrated" => .migrated
  | "NotYetCreated" => .notYetCreated
  | name => .other name

def isMissing (r : Reason) : Bool := r = .missing

theorem asString_ofString (s : String) : (ofString s).asString = s := by
  unfold ofString
  split <;> rfl

def codec : Codec Reason := Codec.text.imap ofString asString

end Reason

/-- schedule bookkeeping of the backup job -/
structure BackupStatus where
  /-- when the next backup is planned -/
  next : String := ""
  /-- when the previous backup ran -/
  previous : String := ""
deriving DecidableEq, Inhabited

namespace BackupStatus

def isEmpty (b : BackupStatus) : Bool := b.next.isEmpty && b.previous.isEmpty

def codec : Codec BackupStatus :=
  .record (.lenient "BackupStatus")
    (.cons (.text "next" (some "When the next backup is planned.")) <|
     .cons (.text "previous" (some "When the previous backup ran.")) .nil)
    (fun x => (x.next, x.previous, ()))
    (fun (next, previous, ()) => ⟨next, previous⟩)
    (some "Schedule bookkeeping of the backup job.")

end BackupStatus

/-- observed state of an installation -/
structure Status where
  phase : Phase := .missing
  upgradeAttempts : Int32 := 0
  /-- moment of the most recent failed upgrade -/
  lastUpgradeFailure : Option String := none
  forceUpgrade : Bool := false
  reason : Reason := .missing
  description : String := ""
  version : String := ""
  targetVersion : String := ""
  backup : BackupStatus := {}
deriving DecidableEq, Inhabited

namespace Status

def codec : Codec Status :=
  .record (.lenient "SyndesisStatus")
    (.cons
      { name := "phase", codec := Phase.codec, absent := some .missing, omitted := Phase.isMissing } <|
     .cons (.int32 "upgradeAttempts") <|
     .cons (.optional "lastUpgradeFailure" .text (some "RFC 3339 timestamp of the most recent failed upgrade.")) <|
     .cons (.flag "forceUpgrade") <|
     .cons
      { name := "reason", codec := Reason.codec, absent := some .missing, omitted := Reason.isMissing } <|
     .cons (.text "description") <|
     .cons (.text "version") <|
     .cons (.text "targetVersion") <|
     .cons
      { name := "backup", codec := BackupStatus.codec, absent := some default, omitted := BackupStatus.isEmpty } .nil)
    (fun x => (x.phase, x.upgradeAttempts, x.lastUpgradeFailure, x.forceUpgrade, x.reason, x.description, x.version,
      x.targetVersion, x.backup, ()))
    (fun (phase, upgradeAttempts, lastUpgradeFailure, forceUpgrade, reason, description, version, targetVersion,
        backup, ()) =>
      ⟨phase, upgradeAttempts, lastUpgradeFailure, forceUpgrade, reason, description, version, targetVersion, backup⟩)
    (some ("Observed state of a `Syndesis` resource. The field set is identical across\n" ++
      "API versions, so both versions share this type."))

end Status

end MigrationOperator
