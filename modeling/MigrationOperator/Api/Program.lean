/-
Programs that talk to the cluster.

A `Program` is done or sends a request and goes on with the answer, so all it does can be seen from outside: `exec` runs it
against any server, given as a step on the server's state, and lists the requests that were sent. An `Action` is a program
that may fail. `request` sends a request unless it has a fault and decodes the answer.
-/
import MigrationOperator.Api.Error

namespace MigrationOperator

inductive Program (α : Type) where
  | done (value : α)
  | send (request : Request) (next : Answer → Program α)

namespace Program

variable {α β γ σ : Type}

def bind : Program α → (α → Program β) → Program β
  | .done x, f => f x
  | .send r next, f => .send r fun a => (next a).bind f

instance : Monad Program where
  pure := .done
  bind := Program.bind

@[simp] theorem pure_eq_done (x : α) : (pure x : Program α) = .done x := rfl

@[simp] theorem done_bind (x : α) (f : α → Program β) : (Program.done x >>= f) = f x := rfl

@[simp] theorem send_bind (r : Request) (next : Answer → Program α) (f : α → Program β) :
    (Program.send r next >>= f) = .send r fun a => next a >>= f := rfl

theorem bind_done (p : Program α) : (p >>= Program.done) = p := by
  induction p with
  | done x => rfl
  | send r next ih => simp [ih]

theorem bind_assoc (p : Program α) (f : α → Program β) (g : β → Program γ) :
    (p >>= f >>= g) = p >>= fun x => f x >>= g := by
  induction p with
  | done x => rfl
  | send r next ih => simp [ih]

instance : LawfulMonad Program := LawfulMonad.mk' Program bind_done (fun _ _ => rfl) bind_assoc

/-- the result of a program, the requests it sent and the server behind them -/
structure Execution (α σ : Type) where
  result : α
  requests : List Request
  server : σ

/-- run a program against a server -/
def exec (serve : σ → Request → Answer × σ) : Program α → σ → Execution α σ
  | .done x, s => ⟨x, [], s⟩
  | .send r next, s =>
    let o := exec serve (next (serve s r).1) (serve s r).2
    { o with requests := r :: o.requests }

/-- a program followed by another runs where the first one left the server -/
theorem exec_bind (serve : σ → Request → Answer × σ) (p : Program α) (f : α → Program β) (s : σ) :
    (p >>= f).exec serve s =
      let first := p.exec serve s
      let second := (f first.result).exec serve first.server
      ⟨second.result, first.requests ++ second.requests, second.server⟩ := by
  induction p generalizing s with
  | done x => rfl
  | send r next ih => simp [exec, ih]

end Program

/-- a program that may fail -/
abbrev Action := ExceptT OperatorError Program

namespace Action

variable {α : Type}

/-- send a request that has no fault -/
def send (r : Request) : Action Answer :=
  match r.fault? with
  | some fault => throw (.unsendable fault)
  | none => ExceptT.mk (.send r fun a => .done (.ok a))

/-- what an answer holds -/
def decode (c : Codec α) : Answer → Except OperatorError α
  | .unreachable message => .error (.unreachable message)
  | .response code body =>
    if isErrorCode code then .error (.api (.ofResponse code body))
    else (c.decodeText body.reading).mapError .undecodable

/-- send a request and decode its answer -/
def request (c : Codec α) (r : Request) : Action α := do
  let a ← send r
  ExceptT.mk (.done (decode c a))

/-- what does not exist counts as absent -/
def orAbsent (x : Action α) : Action (Option α) :=
  ExceptT.mk do
    match ← x.run with
    | .ok a => return .ok (some a)
    | .error e => return if e.isNotFound then .ok none else .error e

end Action

end MigrationOperator
