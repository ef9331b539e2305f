/-
Attempts along a timetable.

Retrying is compared with a timetable that is drawn up beforehand: `startOf` says when each attempt would begin, one
interval after the one before it failed, and `CancelledBy` whether the work is cancelled by then. `Punctual` says that a run
keeps to it. An attempt is made when every one before it failed and the work is not cancelled by the time it would begin;
the first success ends the run and is what it returns; and a run that is cancelled ends there and then, with the attempt
that is under way at the latest. `retry_punctual` says that every run does so, that it makes no difference which of
two ends a wait takes that finds both, and what the metrics count.
-/
import MigrationOperator.Adopter
import MigrationOperator.Metrics

namespace MigrationOperator.Retry

variable {ε α σ : Type}

/-! ## The timetable -/

section

variable (p : Policy) (attempt : σ → Attempt ε α × σ)

/-- the state before an attempt -/
def stateAt : σ → Nat → σ
  | s, 0 => s
  | s, n + 1 => stateAt (attempt s).2 n

/-- how an attempt goes -/
def trial (s : σ) (n : Nat) : Attempt ε α := (attempt (stateAt attempt s n)).1

/-- when an attempt begins, where the first one begins at `now`: one interval after the one before it ended, and after
thirty years at the latest -/
def startOf (now : Nat) (s : σ) : Nat → Nat
  | 0 => now
  | n + 1 => startOf now s n + (trial attempt s n).duration + min p.interval longestWait

/-- and when it ends -/
def endOf (now : Nat) (s : σ) (n : Nat) : Nat := startOf p attempt now s n + (trial attempt s n).duration

/-- the work is cancelled by the time that an attempt would begin -/
inductive CancelledBy (cancelled : Bool) (now : Nat) (s : σ) : Nat → Prop where
  | beforehand {n : Nat} (h : cancelled = true) : CancelledBy cancelled now s n
  /-- while an earlier attempt ran -/
  | during {k n : Nat} (hk : k < n) (h : (trial attempt s k).cancels = true) : CancelledBy cancelled now s n
  /-- before the next attempt was to begin, or at the same moment; the end of the wait may come first, if there is a wait -/
  | waiting {k n t : Nat} (hk : k < n) (h : p.deadline = some t)
    (ht : t < startOf p attempt now s (k + 1) ∨
      t = startOf p attempt now s (k + 1) ∧ (p.waitsFirst = false ∨ t = endOf p attempt now s k)) :
    CancelledBy cancelled now s n

/-- an attempt is to be made: those before it failed, and the work is not cancelled -/
def Due (cancelled : Bool) (now : Nat) (s : σ) (n : Nat) : Prop :=
  (∀ k < n, ∃ e, (trial attempt s k).result = .error e) ∧ ¬ CancelledBy p attempt cancelled now s n

/-- what is reported of an attempt that failed -/
def failureOf (now : Nat) (s : σ) (n : Nat) : Option (Failure ε) :=
  match (trial attempt s n).result with
  | .ok _ => none
  | .error e => some ⟨endOf p attempt now s n, e⟩

/-- the run made these attempts, of `fuel` at most, at their times, and ended as it should -/
structure Punctual (cancelled : Bool) (now : Nat) (s : σ) (fuel : Nat) (r : Run ε α σ) : Prop where
  /-- the attempts that are due are made, and no others -/
  made : ∀ n, n < r.starts.length ↔ n < fuel ∧ Due p attempt cancelled now s n
  starts : r.starts = (List.range r.starts.length).map (startOf p attempt now s)
  failures : r.failures = (List.range r.starts.length).filterMap (failureOf p attempt now s)
  state : r.state = stateAt attempt s r.starts.length
  /-- what is returned is a success of one of them -/
  result : ∀ a, r.result = some a ↔ ∃ n < r.starts.length, (trial attempt s n).result = .ok a
  /-- and that one is the last, and ends the run -/
  last : ∀ n a, n < r.starts.length → (trial attempt s n).result = .ok a →
    r.starts.length = n + 1 ∧ r.elapsed = endOf p attempt now s n
  /-- without a success the run ends as soon as the work is cancelled, or with the attempt that was under way then -/
  stopped : r.result = none → r.starts.length < fuel →
    (r.starts.length = 0 ∧ r.elapsed = now) ∨ ∃ n, r.starts.length = n + 1 ∧
      ((trial attempt s n).cancels = true ∧ r.elapsed = endOf p attempt now s n ∨
        ∃ t, p.deadline = some t ∧ t ≤ startOf p attempt now s (n + 1) ∧ r.elapsed = max (endOf p attempt now s n) t)

end

/-! ## Waiting -/

/-- the two ends of a wait are told apart where they meet -/
theorem Policy.cuts_iff {p : Policy} {now t : Nat} :
    p.cuts now t = true ↔ t < now + p.pause ∨ t = now + p.pause ∧ (p.waitsFirst = false ∨ t = now) := by
  rw [cuts]
  cases p.waitsFirst with
  | true =>
    simp only [Bool.not_true, Bool.and_false, Bool.or_false, Bool.or_eq_true, decide_eq_true_eq, Bool.true_eq_false,
      false_or]
    omega
  | false =>
    simp only [Bool.not_false, Bool.and_true, Bool.or_eq_true, decide_eq_true_eq, beq_iff_eq, true_or, and_true]
    omega

theorem Policy.notice?_eq_some_iff {p : Policy} {cancelled : Bool} {now t : Nat} :
    p.notice? cancelled now = some t ↔ cancelled = true ∧ t = now ∨ cancelled = false ∧ ∃ d, p.deadline = some d ∧
      (d < now + p.pause ∨ d = now + p.pause ∧ (p.waitsFirst = false ∨ d = now)) ∧ t = max now d := by
  rw [notice?]
  cases cancelled with
  | true => simpa using eq_comm
  | false =>
    simp only [Bool.false_eq_true, if_false, Option.bind_eq_some_iff, false_and, true_and, false_or]
    refine exists_congr fun d => and_congr_right fun _ => ?_
    rw [← Policy.cuts_iff]
    cases p.cuts now d with
    | true => simpa using eq_comm
    | false => simp

/-- a wait that finds the work cancelled ends then, and at the very end of its interval it may take that for its end -/
theorem Policy.wait_of_notice? {p : Policy} {cancelled : Bool} {now t : Nat} (h : p.notice? cancelled now = some t) :
    p.wait cancelled now = .cancelled t ∨ p.wait cancelled now = .elapsed t true := by
  rw [wait, h]
  dsimp only
  split
  · exact Or.inr rfl
  · exact Or.inl rfl

theorem Policy.wait_of_not_notice? {p : Policy} {cancelled : Bool} {now : Nat} (h : p.notice? cancelled now = none) :
    p.wait cancelled now = .elapsed (now + p.pause) false := by
  rw [wait, h]

/-! ## A run keeps to the timetable -/

section

variable {p : Policy} {attempt : σ → Attempt ε α × σ} {cancelled : Bool} {now n fuel : Nat} {s : σ} {r : Run ε α σ}

/-- the timetable of the attempts after the first -/
theorem startOf_next (n : Nat) :
    startOf p attempt (startOf p attempt now s 1) (attempt s).2 n = startOf p attempt now s (n + 1) := by
  induction n with
  | zero => rfl
  | succ n ih =>
    rw [startOf, ih]
    rfl

theorem endOf_next (n : Nat) :
    endOf p attempt (startOf p attempt now s 1) (attempt s).2 n = endOf p attempt now s (n + 1) := by
  rw [endOf, startOf_next]
  rfl

theorem failureOf_next (n : Nat) :
    failureOf p attempt (startOf p attempt now s 1) (attempt s).2 n = failureOf p attempt now s (n + 1) := by
  rw [failureOf, endOf_next]
  rfl

theorem cancelledBy_zero_iff : CancelledBy p attempt cancelled now s 0 ↔ cancelled = true := by
  constructor
  · intro h
    cases h with
    | beforehand h => exact h
    | during hk _ => exact absurd hk (Nat.not_lt_zero _)
    | waiting hk _ _ => exact absurd hk (Nat.not_lt_zero _)
  · exact .beforehand

theorem due_zero : Due p attempt false now s 0 :=
  ⟨fun k hk => absurd hk (Nat.not_lt_zero k), fun h => Bool.false_ne_true (cancelledBy_zero_iff.1 h)⟩

/-- what comes before the second attempt comes beforehand, or is found by the first wait, or comes after it -/
theorem cancelledBy_succ_iff : CancelledBy p attempt cancelled now s (n + 1) ↔
    cancelled = true ∨ (∃ t, p.notice? (attempt s).1.cancels (endOf p attempt now s 0) = some t) ∨
      CancelledBy p attempt false (startOf p attempt now s 1) (attempt s).2 n := by
  simp only [Policy.notice?_eq_some_iff]
  constructor
  · intro h
    cases h with
    | beforehand h => exact Or.inl h
    | @during k _ hk h =>
      cases k with
      | zero => exact Or.inr (Or.inl ⟨_, Or.inl ⟨h, rfl⟩⟩)
      | succ k => exact Or.inr (Or.inr (.during (Nat.lt_of_succ_lt_succ hk) h))
    | @waiting k _ t hk h ht =>
      cases k with
      | zero =>
        cases hcancels : (attempt s).1.cancels with
        | true => exact Or.inr (Or.inl ⟨_, Or.inl ⟨rfl, rfl⟩⟩)
        | false => exact Or.inr (Or.inl ⟨_, Or.inr ⟨rfl, t, h, ht, rfl⟩⟩)
      | succ k =>
        rw [← startOf_next, ← endOf_next] at ht
        exact Or.inr (Or.inr (.waiting (Nat.lt_of_succ_lt_succ hk) h ht))
  · rintro (h | ⟨t, ⟨h, -⟩ | ⟨-, d, h, ht, -⟩⟩ | h)
    · exact .beforehand h
    · exact .during (Nat.succ_pos n) h
    · exact .waiting (Nat.succ_pos n) h ht
    · cases h with
      | beforehand h => exact absurd h Bool.false_ne_true
      | during hk h => exact .during (Nat.succ_lt_succ hk) h
      | waiting hk h ht =>
        rw [startOf_next, endOf_next] at ht
        exact .waiting (Nat.succ_lt_succ hk) h ht

/-! ### One attempt -/

theorem attempts_of_cancelled (p : Policy) (attempt : σ → Attempt ε α × σ) (fuel now : Nat) (s : σ) :
    attempts p attempt fuel true now s = ⟨none, [], [], now, s⟩ := by
  cases fuel <;> rfl

theorem attempts_of_ok {a : α} (hfirst : (attempt s).1.result = .ok a) :
    attempts p attempt (fuel + 1) false now s = ⟨some a, [now], [], endOf p attempt now s 0, (attempt s).2⟩ := by
  simp only [attempts, Bool.false_eq_true, if_false, hfirst]
  rfl

/-- whichever end the wait takes that finds the work cancelled, no attempt follows -/
theorem attempts_of_notice? {e : ε} {t : Nat} (hfirst : (attempt s).1.result = .error e)
    (h : p.notice? (attempt s).1.cancels (endOf p attempt now s 0) = some t) :
    attempts p attempt (fuel + 1) false now s = ⟨none, [now], [⟨endOf p attempt now s 0, e⟩], t, (attempt s).2⟩ := by
  have hwait := Policy.wait_of_notice? h
  simp only [endOf, startOf, trial, stateAt] at hwait
  simp only [attempts, Bool.false_eq_true, if_false, hfirst]
  rcases hwait with hwait | hwait
  · rw [hwait]
    rfl
  · rw [hwait]
    dsimp only
    rw [attempts_of_cancelled]
    rfl

theorem attempts_of_not_notice? {e : ε} (hfirst : (attempt s).1.result = .error e)
    (h : p.notice? (attempt s).1.cancels (endOf p attempt now s 0) = none) :
    attempts p attempt (fuel + 1) false now s =
      let r := attempts p attempt fuel false (startOf p attempt now s 1) (attempt s).2
      { r with starts := now :: r.starts, failures := ⟨endOf p attempt now s 0, e⟩ :: r.failures } := by
  have hwait := Policy.wait_of_not_notice? h
  simp only [endOf, startOf, trial, stateAt] at hwait
  simp only [attempts, Bool.false_eq_true, if_false, hfirst, hwait]
  rfl

/-! ### The whole run -/

/-- without an attempt -/
theorem punctual_idle (h : ∀ n < fuel, ¬ Due p attempt cancelled now s n) :
    Punctual p attempt cancelled now s fuel ⟨none, [], [], now, s⟩ where
  made n := ⟨fun hn => absurd hn (Nat.not_lt_zero n), fun ⟨hn, hdue⟩ => absurd hdue (h n hn)⟩
  starts := rfl
  failures := rfl
  state := rfl
  result _ := ⟨nofun, fun ⟨n, hn, _⟩ => absurd hn (Nat.not_lt_zero n)⟩
  last n _ hn := absurd hn (Nat.not_lt_zero n)
  stopped _ _ := Or.inl ⟨rfl, rfl⟩

/-- a wait that finds the work cancelled does so at the end of the attempt or at the moment of cancellation -/
theorem stopped_of_notice? {t : Nat} (h : p.notice? (attempt s).1.cancels (endOf p attempt now s 0) = some t) :
    (trial attempt s 0).cancels = true ∧ t = endOf p attempt now s 0 ∨
      ∃ d, p.deadline = some d ∧ d ≤ startOf p attempt now s 1 ∧ t = max (endOf p attempt now s 0) d := by
  rcases Policy.notice?_eq_some_iff.1 h with ⟨hcancels, ht⟩ | ⟨-, d, hd, hcuts, ht⟩
  · exact Or.inl ⟨hcancels, ht⟩
  · exact Or.inr ⟨d, hd, hcuts.elim Nat.le_of_lt fun h => Nat.le_of_eq h.1, ht⟩

/-- with one attempt, after which no other is due -/
theorem punctual_single {result : Option α} {failures : List (Failure ε)} {elapsed : Nat}
    (hresult : ∀ a, result = some a ↔ (attempt s).1.result = .ok a)
    (hfailures : failures = (failureOf p attempt now s 0).toList)
    (hlast : ∀ a, result = some a → elapsed = endOf p attempt now s 0) (hdue : ∀ n, ¬ Due p attempt false now s (n + 1))
    (hstopped : result = none →
      ∃ t, p.notice? (attempt s).1.cancels (endOf p attempt now s 0) = some t ∧ elapsed = t) :
    Punctual p attempt false now s (fuel + 1) ⟨result, [now], failures, elapsed, (attempt s).2⟩ where
  made n := by
    cases n with
    | zero => exact ⟨fun _ => ⟨Nat.succ_pos fuel, due_zero⟩, fun _ => Nat.one_pos⟩
    | succ n => exact ⟨fun hn => absurd (Nat.lt_of_succ_lt_succ hn) (Nat.not_lt_zero n), fun h => absurd h.2 (hdue n)⟩
  starts := rfl
  failures := by
    rw [hfailures]
    show _ = [0].filterMap (failureOf p attempt now s)
    rw [List.filterMap_cons, List.filterMap_nil]
    cases failureOf p attempt now s 0 <;> rfl
  state := rfl
  result a := by
    rw [hresult]
    constructor
    · intro h
      exact ⟨0, Nat.one_pos, h⟩
    · rintro ⟨n, hn, h⟩
      obtain rfl := Nat.lt_one_iff.1 hn
      exact h
  last n a hn h := by
    obtain rfl := Nat.lt_one_iff.1 hn
    exact ⟨rfl, hlast a ((hresult a).2 h)⟩
  stopped hnone _ := by
    obtain ⟨t, ht, rfl⟩ := hstopped hnone
    exact Or.inr ⟨0, rfl, stopped_of_notice? ht⟩

/-- after an attempt that failed and a wait that did not find the work cancelled, an attempt is due if it is due from
there -/
theorem due_succ_iff {e : ε} (hfirst : (attempt s).1.result = .error e)
    (hnotice : p.notice? (attempt s).1.cancels (endOf p attempt now s 0) = none) :
    Due p attempt false now s (n + 1) ↔ Due p attempt false (startOf p attempt now s 1) (attempt s).2 n := by
  have hfailed : (∀ k < n + 1, ∃ e, (trial attempt s k).result = .error e) ↔
      ∀ k < n, ∃ e, (trial attempt (attempt s).2 k).result = .error e := by
    constructor
    · intro h k hk
      exact h (k + 1) (Nat.succ_lt_succ hk)
    · intro h k hk
      cases k with
      | zero => exact ⟨e, hfirst⟩
      | succ k => exact h k (Nat.lt_of_succ_lt_succ hk)
  rw [Due, Due, hfailed, cancelledBy_succ_iff, hnotice]
  simp only [Bool.false_eq_true, reduceCtorEq, exists_false, false_or]

/-- with a first attempt that failed and the others after a wait -/
theorem Punctual.cons {e : ε} (hfirst : (attempt s).1.result = .error e)
    (hnotice : p.notice? (attempt s).1.cancels (endOf p attempt now s 0) = none)
    (h : Punctual p attempt false (startOf p attempt now s 1) (attempt s).2 fuel r) :
    Punctual p attempt false now s (fuel + 1)
      { r with starts := now :: r.starts, failures := ⟨endOf p attempt now s 0, e⟩ :: r.failures } where
  made n := by
    cases n with
    | zero => exact ⟨fun _ => ⟨Nat.succ_pos fuel, due_zero⟩, fun _ => Nat.succ_pos _⟩
    | succ n =>
      rw [due_succ_iff hfirst hnotice, List.length_cons, Nat.succ_lt_succ_iff, Nat.succ_lt_succ_iff]
      exact h.made n
  starts := by
    rw [List.length_cons, List.range_succ_eq_map, List.map_cons, List.map_map]
    exact congrArg (now :: ·) (h.starts.trans (congrArg (List.map · _) (funext startOf_next)))
  failures := by
    have hfailure : failureOf p attempt now s 0 = some ⟨endOf p attempt now s 0, e⟩ := by
      rw [failureOf, trial, stateAt, hfirst]
    rw [List.length_cons, List.range_succ_eq_map, List.filterMap_cons, hfailure, List.filterMap_map]
    exact congrArg (_ :: ·) (h.failures.trans (congrArg (List.filterMap · _) (funext failureOf_next)))
  state := h.state
  result a := by
    refine (h.result a).trans ⟨?_, ?_⟩
    · rintro ⟨n, hn, ha⟩
      exact ⟨n + 1, Nat.succ_lt_succ hn, ha⟩
    · rintro ⟨n, hn, ha⟩
      cases n with
      | zero => exact absurd (hfirst.symm.trans ha) nofun
      | succ n => exact ⟨n, Nat.lt_of_succ_lt_succ hn, ha⟩
  last n a hn ha := by
    cases n with
    | zero => exact absurd (hfirst.symm.trans ha) nofun
    | succ n =>
      obtain ⟨hlength, helapsed⟩ := h.last n a (Nat.lt_of_succ_lt_succ hn) ha
      exact ⟨congrArg (· + 1) hlength, helapsed.trans (endOf_next n)⟩
  stopped hnone hlt := by
    have hlt := Nat.lt_of_succ_lt_succ hlt
    rcases h.stopped hnone hlt with ⟨hzero, -⟩ | ⟨n, hlength, hend⟩
    · -- the attempt after the wait was due
      have hmade := (h.made 0).2 ⟨Nat.zero_lt_of_lt hlt, due_zero⟩
      exact absurd (hzero ▸ hmade) (Nat.lt_irrefl 0)
    · rw [startOf_next, endOf_next] at hend
      exact Or.inr ⟨n + 1, congrArg (· + 1) hlength, hend⟩

/-- attempts keep to the timetable, from any moment on -/
theorem punctual_attempts (p : Policy) (attempt : σ → Attempt ε α × σ) (fuel : Nat) (cancelled : Bool) (now : Nat)
    (s : σ) : Punctual p attempt cancelled now s fuel (attempts p attempt fuel cancelled now s) := by
  induction fuel generalizing cancelled now s with
  | zero => exact punctual_idle fun n hn => absurd hn (Nat.not_lt_zero n)
  | succ fuel ih =>
    cases cancelled with
    | true => exact punctual_idle fun n _ hdue => hdue.2 (.beforehand rfl)
    | false =>
      cases hfirst : (attempt s).1.result with
      | ok a =>
        rw [attempts_of_ok hfirst]
        refine punctual_single (fun b => ?_) ?_ (fun _ _ => rfl) (fun n hdue => ?_) nofun
        · rw [hfirst, Option.some.injEq, Except.ok.injEq]
        · rw [failureOf, trial, stateAt, hfirst]
          rfl
        · obtain ⟨e, he⟩ := hdue.1 0 (Nat.succ_pos n)
          exact absurd (hfirst.symm.trans he) nofun
      | error e =>
        cases hnotice : p.notice? (attempt s).1.cancels (endOf p attempt now s 0) with
        | some t =>
          rw [attempts_of_notice? hfirst hnotice]
          refine punctual_single (fun a => ?_) ?_ nofun (fun n hdue => ?_) (fun _ => ⟨t, hnotice, rfl⟩)
          · rw [hfirst]
            exact ⟨nofun, nofun⟩
          · rw [failureOf, trial, stateAt, hfirst]
            rfl
          · exact hdue.2 (cancelledBy_succ_iff.2 (Or.inr (Or.inl ⟨t, hnotice⟩)))
        | none =>
          rw [attempts_of_not_notice? hfirst hnotice]
          exact (ih _ _ _).cons hfirst hnotice

/-! ## What a run does not depend on -/

/-- it makes no difference which of its two ends a wait takes that finds both -/
theorem attempts_prefersEnd (p : Policy) (b : Bool) (attempt : σ → Attempt ε α × σ) (fuel : Nat) (cancelled : Bool)
    (now : Nat) (s : σ) :
    attempts { p with prefersEnd := b } attempt fuel cancelled now s = attempts p attempt fuel cancelled now s := by
  induction fuel generalizing cancelled now s with
  | zero => rfl
  | succ fuel ih =>
    cases cancelled with
    | true => rfl
    | false =>
      cases hfirst : (attempt s).1.result with
      | ok a =>
        rw [attempts_of_ok hfirst, attempts_of_ok hfirst]
        rfl
      | error e =>
        cases hnotice : p.notice? (attempt s).1.cancels (endOf p attempt now s 0) with
        | some t =>
          rw [attempts_of_notice? hfirst hnotice]
          exact attempts_of_notice? (p := { p with prefersEnd := b }) hfirst hnotice
        | none =>
          rw [attempts_of_not_notice? hfirst hnotice, ← ih]
          exact attempts_of_not_notice? (p := { p with prefersEnd := b }) hfirst hnotice

/-- a run that ended is the same with attempts to spare -/
theorem attempts_add (p : Policy) (attempt : σ → Attempt ε α × σ) (fuel more : Nat) (cancelled : Bool) (now : Nat)
    (s : σ) (h : (attempts p attempt fuel cancelled now s).starts.length < fuel) :
    attempts p attempt (fuel + more) cancelled now s = attempts p attempt fuel cancelled now s := by
  induction fuel generalizing cancelled now s with
  | zero => exact absurd h (Nat.not_lt_zero _)
  | succ fuel ih =>
    rw [Nat.succ_add]
    cases cancelled with
    | true => rfl
    | false =>
      cases hfirst : (attempt s).1.result with
      | ok a => rw [attempts_of_ok hfirst, attempts_of_ok hfirst]
      | error e =>
        cases hnotice : p.notice? (attempt s).1.cancels (endOf p attempt now s 0) with
        | some t => rw [attempts_of_notice? hfirst hnotice, attempts_of_notice? hfirst hnotice]
        | none =>
          rw [attempts_of_not_notice? hfirst hnotice] at h ⊢
          rw [attempts_of_not_notice? hfirst hnotice, ih _ _ _ (Nat.lt_of_succ_lt_succ h)]

end

end MigrationOperator.Retry

/-! ## What the metrics count -/

namespace MigrationOperator

theorem Adoption.label_ne_errorLabel (a : Adoption) : a.label ≠ Metrics.errorLabel := by
  cases a <;> simp [label, Metrics.errorLabel]

namespace Metrics

variable {ε σ : Type}

/-- the counters of the adoption grow by one for every failure and for the result; no other metric changes -/
theorem recordAdoption_counts (m : Metrics) (r : Retry.Run ε Adoption σ) :
    countOf (m.recordAdoption r).adoptions errorLabel = countOf m.adoptions errorLabel + r.failures.length ∧
      (∀ label ≠ errorLabel, countOf (m.recordAdoption r).adoptions label =
        countOf m.adoptions label + if r.result.map Adoption.label = some label then 1 else 0) ∧
      (m.recordAdoption r).migrations = m.migrations ∧ (m.recordAdoption r).instances = m.instances := by
  obtain ⟨result, starts, failures, elapsed, s⟩ := r
  induction failures generalizing m with
  | nil =>
    cases result with
    | none => exact ⟨rfl, fun _ _ => rfl, rfl, rfl⟩
    | some a =>
      refine ⟨?_, fun label _ => ?_, rfl, rfl⟩
      · exact (countOf_bump ..).trans (congrArg _ (if_neg a.label_ne_errorLabel.symm))
      · refine (countOf_bump ..).trans (congrArg _ ?_)
        simp only [Option.map_some, Option.some.injEq, eq_comm]
  | cons f failures ih =>
    obtain ⟨herror, hothers, hrest⟩ := ih (m.countAdoption errorLabel)
    refine ⟨herror.trans ?_, fun label hlabel => (hothers label hlabel).trans ?_, hrest⟩
    · rw [countAdoption, countOf_bump, if_pos rfl, Nat.add_assoc, Nat.add_comm 1]
      rfl
    · rw [countAdoption, countOf_bump, if_neg hlabel]
      rfl

end Metrics

end MigrationOperator

/-! ## Every run -/

namespace MigrationOperator.Retry

variable {σ : Type}

/-- Retrying keeps to the timetable, whichever end a wait takes that finds both. A run that ended does not depend on how
many attempts it had to spare; and the counters of the adoption grow by its failures and its result. -/
theorem retry_punctual (p : Policy) (cancelledBefore : Bool) (attempt : σ → Attempt OperatorError Adoption × σ)
    (fuel : Nat) (s : σ) (m : Metrics) :
    let r := run p cancelledBefore attempt fuel s
    Punctual p attempt (cancelledBefore || p.startsCancelled) 0 s fuel r ∧
      (∀ b, run { p with prefersEnd := b } cancelledBefore attempt fuel s = r) ∧
      (∀ more, r.starts.length < fuel → run p cancelledBefore attempt (fuel + more) s = r) ∧
      Metrics.countOf (m.recordAdoption r).adoptions Metrics.errorLabel =
        Metrics.countOf m.adoptions Metrics.errorLabel + r.failures.length ∧
      (∀ label ≠ Metrics.errorLabel, Metrics.countOf (m.recordAdoption r).adoptions label =
        Metrics.countOf m.adoptions label + if r.result.map Adoption.label = some label then 1 else 0) ∧
      (m.recordAdoption r).migrations = m.migrations ∧ (m.recordAdoption r).instances = m.instances :=
  ⟨punctual_attempts .., fun b => attempts_prefersEnd p b .., fun more h => attempts_add p attempt fuel more _ 0 s h,
    m.recordAdoption_counts _⟩

/-- a server that fails the first request and has nothing afterwards -/
def recovering (n : Nat) (_ : Request) : Answer × Nat :=
  (if n = 0 then .failure 500 "InternalError" "" else .failure 404 "NotFound" "", n + 1)

/-- An interval of more than thirty years is cut short: the second attempt begins thirty years after the first failed. -/
theorem exists_attempt_before_interval :
    let p : Policy := { interval := 1000000000000 }
    let r := Adopter.run recovering (fun _ => false) { namespaceName := "test" } p false 2 0
    r.failures.map Failure.moment = [0] ∧ r.starts = [0, 946080000000] ∧ 946080000000 < 0 + p.interval := by
  decide +kernel

end MigrationOperator.Retry
