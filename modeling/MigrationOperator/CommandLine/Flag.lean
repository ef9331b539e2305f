/-
Flags, their values and what they configure.

Every flag takes a value and has an environment variable that stands in for it. Values are read as they are met: a port is a
number in base ten with an optional sign, from 0 to 65535, and any other value is text.
-/
import MigrationOperator.Context

namespace MigrationOperator.CommandLine

inductive Flag where
  | namespaceName
  | legacyConfigSecret
  | metricsPort
deriving DecidableEq

namespace Flag

def all : List Flag := [.namespaceName, .legacyConfigSecret, .metricsPort]

/-- the name after the dashes -/
def name : Flag → String
  | .namespaceName => "namespace"
  | .legacyConfigSecret => "legacy-config-secret"
  | .metricsPort => "metrics-port"

/-- the environment variable that stands in for the flag -/
def environmentName : Flag → String
  | .namespaceName => "WATCH_NAMESPACE"
  | .legacyConfigSecret => "LEGACY_CONFIG_SECRET"
  | .metricsPort => "METRICS_PORT"

/-- what stands for the value of the flag -/
def placeholder : Flag → String
  | .namespaceName => "<NAMESPACE>"
  | .legacyConfigSecret => "<LEGACY_CONFIG_SECRET>"
  | .metricsPort => "<METRICS_PORT>"

/-- the flag with what stands for its value -/
def display (f : Flag) : String := "--" ++ f.name ++ " " ++ f.placeholder

def ofName? (s : String) : Option Flag := all.find? (fun f => f.name = s)

end Flag

/-! ## Ports -/

/-- the port of the endpoints when none is given -/
def defaultPort : UInt16 := 8080

/-- why a text is no port -/
inductive PortFault where
  | empty
  | invalidDigit
  /-- above the integers of 64 bits -/
  | tooLarge
  /-- below the integers of 64 bits -/
  | tooSmall
  | outOfRange (n : Int)
deriving DecidableEq

def PortFault.message : PortFault → String
  | .empty => "cannot parse integer from empty string"
  | .invalidDigit => "invalid digit found in string"
  | .tooLarge => "number too large to fit in target type"
  | .tooSmall => "number too small to fit in target type"
  | .outOfRange n => toString n ++ " is not in 0..=65535"

namespace Port

/-- digits up to a limit; what comes first decides, a character that is no digit or the one that passes the limit -/
def digits (limit : Nat) (overflow : PortFault) : Nat → List Char → Except PortFault Nat
  | n, [] => .ok n
  | n, c :: cs =>
    if !c.isDigit then .error .invalidDigit
    else
      let n := n * 10 + (c.toNat - 48)
      if limit < n then .error overflow else digits limit overflow n cs

/-- an integer of 64 bits -/
def integer : List Char → Except PortFault Int
  | [] => .error .empty
  | ['+'] | ['-'] => .error .invalidDigit
  | '+' :: cs => (digits Int64.maxValue.toInt.natAbs .tooLarge 0 cs).map (fun n => (n : Int))
  | '-' :: cs => (digits Int64.minValue.toInt.natAbs .tooSmall 0 cs).map (fun n => -(n : Int))
  | cs => (digits Int64.maxValue.toInt.natAbs .tooLarge 0 cs).map (fun n => (n : Int))

def ofText (s : String) : Except PortFault UInt16 := do
  let n ← integer s.toList
  if 0 ≤ n ∧ n ≤ 65535 then return UInt16.ofNat n.toNat else throw (.outOfRange n)

end Port

/-! ## Configuration -/

structure Config where
  /-- the namespace of the installation -/
  namespaceName : Option String
  /-- the secret with the settings of an older installation -/
  legacyConfigSecret : String
  /-- the port of the metrics and health endpoints -/
  metricsPort : UInt16
deriving DecidableEq

/-- the values given so far, and the flags they were given to in order -/
structure Given where
  namespaceName : Option String := none
  legacyConfigSecret : Option String := none
  metricsPort : Option UInt16 := none
  flags : List Flag := []

/-- what is wrong with the value of a flag -/
inductive ValueFault where
  | repeated (f : Flag)
  | invalid (f : Flag) (value : String) (fault : PortFault)
deriving DecidableEq

namespace Given

/-- give a flag its value -/
def set (g : Given) (f : Flag) (value : String) : Except ValueFault Given := do
  if f ∈ g.flags then throw (.repeated f)
  let g := { g with flags := g.flags ++ [f] }
  match f with
  | .namespaceName => return { g with namespaceName := some value }
  | .legacyConfigSecret => return { g with legacyConfigSecret := some value }
  | .metricsPort =>
    match Port.ofText value with
    | .ok port => return { g with metricsPort := some port }
    | .error fault => throw (.invalid f value fault)

/-- give the flags that have no value that of their variable -/
def complete (environment : String → Option String) (g : Given) : List Flag → Except ValueFault Given
  | [] => .ok g
  | f :: fs => do
    let g ← match environment f.environmentName with
      | some value => if f ∈ g.flags then .ok g else g.set f value
      | none => .ok g
    complete environment g fs

def config (g : Given) : Config where
  namespaceName := g.namespaceName
  legacyConfigSecret := g.legacyConfigSecret.getD defaultSecretName
  metricsPort := g.metricsPort.getD defaultPort

end Given

end MigrationOperator.CommandLine
