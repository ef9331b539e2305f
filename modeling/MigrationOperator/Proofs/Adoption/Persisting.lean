/-
The adopter as one program.

The adopter makes attempts until one succeeds. `persisting` is that as a program, so its requests can be interleaved with
those of others. Against a server by itself it does what the adopter does (`exists_enacts`), and whenever it is about to
send a request it is in the middle of an attempt or begins one (`Persists.of_send`).
-/
import MigrationOperator.Adopter
import MigrationOperator.Proofs.Adoption.Stage

namespace MigrationOperator.Adoption

/-- the end of an attempt: an adoption, or whatever follows on a failure -/
def unlessAdopted (rest : Program (Option Adoption)) : Except OperatorError Adoption → Program (Option Adoption)
  | .ok a => .done (some a)
  | .error _ => rest

/-- attempts until one succeeds, so many of them at most -/
def persisting (c : Context) : Nat → Program (Option Adoption)
  | 0 => .done none
  | n + 1 => (attempt c).run >>= unlessAdopted (persisting c n)

/-! ## By itself -/

section

variable {σ : Type} (serve : σ → Request → Answer × σ) (cancelled : σ → Bool) (c : Context) (p : Retry.Policy)

/-- an attempt that succeeds is the last one -/
theorem exec_persisting_of_ok {s : σ} {a : Adoption} (h : ((attempt c).run.exec serve s).result = .ok a) (n : Nat) :
    (persisting c (n + 1)).exec serve s =
      ⟨some a, ((attempt c).run.exec serve s).requests, ((attempt c).run.exec serve s).server⟩ := by
  rw [persisting, Program.exec_bind]
  simp [h, unlessAdopted, Program.exec]

/-- after one that fails the others begin where it left the server -/
theorem exec_persisting_of_error {s : σ} {e : OperatorError} (h : ((attempt c).run.exec serve s).result = .error e)
    (n : Nat) :
    (persisting c (n + 1)).exec serve s =
      let first := (attempt c).run.exec serve s
      let rest := (persisting c n).exec serve first.server
      ⟨rest.result, first.requests ++ rest.requests, rest.server⟩ := by
  rw [persisting, Program.exec_bind]
  simp only [h, unlessAdopted]

/-- a run that began there ended as the program does -/
def Enacts (s : Adopter.Observed σ) (run : Retry.Run OperatorError Adoption (Adopter.Observed σ))
    (o : Program.Execution (Option Adoption) σ) : Prop :=
  run.result = o.result ∧ run.state.server = o.server ∧ run.state.requests = s.requests ++ o.requests

theorem exists_enacts_attempts (fuel : Nat) (stopped : Bool) (now : Nat) (s : Adopter.Observed σ) :
    ∃ n ≤ fuel, Enacts s (Retry.attempts p (Adopter.attempt serve cancelled c) fuel stopped now s)
      ((persisting c n).exec serve s.server) := by
  -- without an attempt the program is over as well
  have hidle : ∀ (now : Nat) (s : Adopter.Observed σ),
      Enacts s ⟨none, [], [], now, s⟩ ((persisting c 0).exec serve s.server) :=
    fun _ _ => ⟨rfl, rfl, (List.append_nil _).symm⟩
  induction fuel generalizing stopped now s with
  | zero => exact ⟨0, Nat.le_refl 0, hidle now s⟩
  | succ fuel ih =>
    have hone : 1 ≤ fuel + 1 := Nat.le_add_left 1 fuel
    cases stopped with
    | true => exact ⟨0, Nat.zero_le _, hidle now s⟩
    | false =>
      obtain ⟨⟨⟨result, cancels, duration⟩, s₁⟩, hattempt⟩ : ∃ x, Adopter.attempt serve cancelled c s = x := ⟨_, rfl⟩
      obtain ⟨hmade, rfl⟩ := Prod.mk.inj hattempt
      obtain ⟨hresult, -, -⟩ := Retry.Attempt.mk.inj hmade
      simp only [Retry.attempts, hattempt, Bool.false_eq_true, if_false]
      cases result with
      | ok a => exact ⟨1, hone, by rw [exec_persisting_of_ok serve c hresult]; exact ⟨rfl, rfl, rfl⟩⟩
      | error e =>
        have hfailed := exec_persisting_of_error serve c hresult
        dsimp only
        cases p.wait cancels (now + duration) with
        | cancelled ended =>
          -- nor does it make another attempt after one that was the last
          refine ⟨1, hone, ?_⟩
          rw [hfailed]
          exact ⟨rfl, rfl, by simp [persisting, Program.exec]⟩
        | elapsed later stopped =>
          obtain ⟨n, hn, hr, hserver, hrequests⟩ := ih stopped later ⟨_, s.requests ++ _⟩
          refine ⟨n + 1, Nat.succ_le_succ hn, ?_⟩
          rw [hfailed]
          exact ⟨hr, hserver, hrequests.trans (List.append_assoc _ _ _)⟩

/-- **The adopter does what the program does**, with as many attempts as it got to before it was cancelled. -/
theorem exists_enacts (cancelledBefore : Bool) (fuel : Nat) (s : σ) :
    ∃ n ≤ fuel, Enacts { server := s } (Adopter.run serve cancelled c p cancelledBefore fuel s)
      ((persisting c n).exec serve s) :=
  exists_enacts_attempts serve cancelled c p fuel _ 0 { server := s }

end

/-! ## Among others -/

variable {c : Context} {stage : Stage} {r : Request} {next : Answer → Program (Option Adoption)} {n : Nat}
  {q : Program (Except OperatorError Adoption)}

/-- a program that is over, or in the middle of an attempt that is at a stage, with others to follow -/
inductive Persists (c : Context) : Stage → Program (Option Adoption) → Prop where
  | ended (stage : Stage) (result : Option Adoption) : Persists c stage (.done result)
  | attempting {stage : Stage} {q : Program (Except OperatorError Adoption)} (h : Runs c stage q) (n : Nat) :
    Persists c stage (q >>= unlessAdopted (persisting c n))

theorem persists_persisting (c : Context) (n : Nat) : Persists c .readingSecret (persisting c n) := by
  cases n with
  | zero => exact .ended _ _
  | succ n => exact .attempting (runs_attempt c) n

/-- the request is the one of the stage, and the answer leads to the stage after it -/
def Sends (c : Context) (stage : Stage) (r : Request) (next : Answer → Program (Option Adoption)) : Prop :=
  stage.request? c = some r ∧ ∀ a, Persists c (stage.next c a) (next a)

/-- an attempt sends the request of its stage, unless it is over and what follows sends the first one -/
theorem Runs.sends_or (h : Runs c stage q) (hq : (q >>= unlessAdopted (persisting c n)) = .send r next)
    (hrest : persisting c n = .send r next → Sends c .readingSecret r next) :
    Sends c stage r next ∨ Sends c .readingSecret r next := by
  cases h with
  | finished result =>
    cases result with
    | ok a => cases hq
    | error e => exact Or.inr (hrest hq)
  | blocked _ _ => exact Or.inr (hrest hq)
  | sends hr _ hnext =>
    obtain ⟨rfl, rfl⟩ := Program.send.inj hq
    exact Or.inl ⟨hr, fun a => .attempting (hnext a) n⟩

theorem sends_of_persisting (h : persisting c n = .send r next) : Sends c .readingSecret r next := by
  induction n with
  | zero => cases h
  | succ n ih => exact ((runs_attempt c).sends_or h ih).elim id id

/-- a program that is about to send is at a stage with this request, or makes the first request of another attempt -/
theorem Persists.of_send (h : Persists c stage (.send r next)) :
    Sends c stage r next ∨ Sends c .readingSecret r next := by
  generalize hp : Program.send r next = p at h
  cases h with
  | ended result => cases hp
  | attempting hruns n => exact hruns.sends_or hp.symm sends_of_persisting

end MigrationOperator.Adoption
