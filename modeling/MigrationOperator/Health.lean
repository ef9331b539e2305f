/-
The metrics and health endpoints.

An installation is ready once the startup pipeline has completed. There are three paths, which answer reads alone.
-/
import MigrationOperator.Metrics

namespace MigrationOperator.Health

/-- what the endpoints show -/
structure State where
  ready : Bool := false
  metrics : Metrics := .empty

/-- mark the startup pipeline as completed -/
def State.markReady (s : State) : State := { s with ready := true }

inductive Endpoint where
  | metrics
  | health
  | readiness
deriving DecidableEq

def Endpoint.path : Endpoint → String
  | .metrics => "/metrics"
  | .health => "/healthz"
  | .readiness => "/readyz"

def Endpoint.ofPath? (path : String) : Option Endpoint := [.metrics, .health, .readiness].find? (·.path = path)

structure Reply where
  status : Nat
  body : String
deriving DecidableEq

def read (s : State) : Endpoint → Reply
  | .metrics => ⟨200, s.metrics.text⟩
  | .health => ⟨200, "ok"⟩
  | .readiness => if s.ready then ⟨200, "ready"⟩ else ⟨503, "migration pending"⟩

/-- answer a request; a read of the head has no body -/
def respond (s : State) (method path : String) : Reply :=
  match Endpoint.ofPath? path with
  | none => ⟨404, ""⟩
  | some e =>
    match method with
    | "GET" => read s e
    | "HEAD" => { read s e with body := "" }
    | _ => ⟨405, ""⟩

end MigrationOperator.Health
