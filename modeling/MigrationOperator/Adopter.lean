/-
The adopter: attempts to adopt against a server, retried until one succeeds or the work is cancelled.
-/
import MigrationOperator.Adoption
import MigrationOperator.Retry

namespace MigrationOperator.Adopter

/-- milliseconds between a failed attempt and the next -/
def defaultInterval : Nat := 5000

/-- a server and the requests that were sent to it, in order -/
structure Observed (σ : Type) where
  server : σ
  requests : List Request := []

variable {σ : Type}

/-- one attempt; `cancelled` tells from the server's state whether the work was cancelled meanwhile -/
def attempt (serve : σ → Request → Answer × σ) (cancelled : σ → Bool) (c : Context) (s : Observed σ) :
    Retry.Attempt OperatorError Adoption × Observed σ :=
  let o := (Adoption.attempt c).run.exec serve s.server
  ({ result := o.result, cancels := cancelled o.server }, ⟨o.server, s.requests ++ o.requests⟩)

/-- attempts until one succeeds or the work is cancelled, `fuel` of them at most -/
def run (serve : σ → Request → Answer × σ) (cancelled : σ → Bool) (c : Context) (p : Retry.Policy)
    (cancelledBefore : Bool) (fuel : Nat) (s : σ) : Retry.Run OperatorError Adoption (Observed σ) :=
  Retry.run p cancelledBefore (attempt serve cancelled c) fuel { server := s }

end MigrationOperator.Adopter
