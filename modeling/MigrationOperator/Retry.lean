/-
Retrying until an attempt succeeds or the work is cancelled.

An attempt that fails is followed by a wait of one interval. Once cancelled, no attempt starts and a wait ends at once; an
attempt that is under way is completed, and its success counts. Time is a number of milliseconds; cancellation comes from
an attempt or at a given moment. It is looked for at two places: before every attempt, and by the wait. When the moment of
cancellation is the very end of a wait, either may come first, and a wait that finds both may take either: the policy says
which.
-/

namespace MigrationOperator.Retry

/-- the longest that a clock waits: thirty years of 365 days -/
def longestWait : Nat := 30 * 365 * 24 * 60 * 60 * 1000

structure Policy where
  /-- milliseconds between a failure and the next attempt -/
  interval : Nat
  /-- the moment at which the work is cancelled -/
  deadline : Option Nat := none
  /-- a wait that ends at the moment of cancellation ends before it -/
  waitsFirst : Bool := true
  /-- a wait that finds itself over and the work cancelled takes the former -/
  prefersEnd : Bool := false

/-- how one attempt went -/
structure Attempt (ε α : Type) where
  result : Except ε α
  /-- the work was cancelled while it ran -/
  cancels : Bool := false
  /-- milliseconds it took -/
  duration : Nat := 0

/-- how a wait ends -/
inductive Waited where
  /-- the interval is over; the work may be cancelled by then -/
  | elapsed (now : Nat) (cancelled : Bool)
  | cancelled (now : Nat)
deriving DecidableEq

namespace Policy

/-- milliseconds of a wait -/
def pause (p : Policy) : Nat := min p.interval longestWait

/-- a cancellation at moment `t` cuts a wait short that begins at `now` -/
def cuts (p : Policy) (now t : Nat) : Bool := t ≤ now || t < now + p.pause || (t == now + p.pause && !p.waitsFirst)

/-- the moment at which a wait that begins at `now` finds the work cancelled -/
def notice? (p : Policy) (cancelled : Bool) (now : Nat) : Option Nat :=
  if cancelled then some now
  else p.deadline.bind fun t => if p.cuts now t then some (max now t) else none

/-- a wait that begins at a moment, of work that may be cancelled already -/
def wait (p : Policy) (cancelled : Bool) (now : Nat) : Waited :=
  match p.notice? cancelled now with
  | some t => if p.prefersEnd && t == now + p.pause then .elapsed t true else .cancelled t
  | none => .elapsed (now + p.pause) false

/-- the work is cancelled as soon as it begins -/
def startsCancelled (p : Policy) : Bool := p.deadline == some 0

/-- attempts enough for work that is cancelled at the latest after so many attempts or at the given moment -/
def attemptLimit (p : Policy) (most : Nat) : Nat := most + (p.deadline.getD 0) / max 1 p.pause + 2

end Policy

/-- an attempt that failed -/
structure Failure (ε : Type) where
  /-- when it ended -/
  moment : Nat
  error : ε

/-- a finished run -/
structure Run (ε α σ : Type) where
  /-- the first success; none when the work was cancelled before -/
  result : Option α
  /-- when the attempts began, in order -/
  starts : List Nat
  /-- the failures before, in order -/
  failures : List (Failure ε)
  elapsed : Nat
  state : σ

variable {ε α σ : Type}

/-- run attempts, at most `fuel` of them, from a moment at which the work may be cancelled -/
def attempts (p : Policy) (attempt : σ → Attempt ε α × σ) : Nat → Bool → Nat → σ → Run ε α σ
  | 0, _, now, s => ⟨none, [], [], now, s⟩
  | fuel + 1, cancelled, now, s =>
    if cancelled then ⟨none, [], [], now, s⟩
    else
      let (a, s) := attempt s
      let ended := now + a.duration
      match a.result with
      | .ok x => ⟨some x, [now], [], ended, s⟩
      | .error e =>
        match p.wait a.cancels ended with
        | .cancelled stopped => ⟨none, [now], [⟨ended, e⟩], stopped, s⟩
        | .elapsed next cancelled =>
          let r := attempts p attempt fuel cancelled next s
          { r with starts := now :: r.starts, failures := ⟨ended, e⟩ :: r.failures }

/-- run attempts from the start -/
def run (p : Policy) (cancelled : Bool) (attempt : σ → Attempt ε α × σ) (fuel : Nat) (s : σ) : Run ε α σ :=
  attempts p attempt fuel (cancelled || p.startsCancelled) 0 s

end MigrationOperator.Retry
