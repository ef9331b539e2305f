/-
Conversations with the cluster.

An `Exchange` is a request with the answer it got, and `Program.Reaches` says where a program stands after some of them.
Nothing is assumed of the answers, so what holds after every conversation holds whatever the cluster does: it may change
its objects between two requests, or lose them. A server that is a function has one `Program.conversation` with a program,
which is one of these and leads to the result (`Program.reaches_conversation`). What an action says is put together from
what its requests say, each of which is sent once or not at all (`Action.Sent`).
-/
import MigrationOperator.Api.Program

namespace MigrationOperator

/-- a request and its answer -/
structure Exchange where
  request : Request
  answer : Answer

namespace Program

variable {α β σ : Type} {p q : Program α} {es : List Exchange}

/-- a program stands at another one once its requests were answered, in this order and in any way -/
inductive Reaches : Program α → List Exchange → Program α → Prop where
  | start (p : Program α) : Reaches p [] p
  | ask {r : Request} {next : Answer → Program α} {a : Answer} {es : List Exchange} {q : Program α}
    (h : Reaches (next a) es q) : Reaches (.send r next) (⟨r, a⟩ :: es) q

/-- a program that is over says nothing more -/
theorem Reaches.of_done {x : α} (h : (Program.done x).Reaches es q) : es = [] ∧ q = .done x := by
  cases h with
  | start => exact ⟨rfl, rfl⟩

/-- one that sends a request and ends got an answer to it -/
theorem Reaches.exists_answer {r : Request} {next : Answer → Program α} {x : α}
    (h : (Program.send r next).Reaches es (.done x)) :
    ∃ a fs, es = ⟨r, a⟩ :: fs ∧ (next a).Reaches fs (.done x) := by
  cases h with
  | ask h => exact ⟨_, _, rfl, h⟩

/-- every exchange was about to be made -/
theorem Reaches.exists_of_append {before after : List Exchange} {e : Exchange}
    (h : p.Reaches (before ++ e :: after) q) : ∃ next, p.Reaches before (.send e.request next) := by
  induction before generalizing p with
  | nil =>
    cases h with
    | ask _ => exact ⟨_, .start _⟩
  | cons f before ih =>
    cases h with
    | ask h =>
      obtain ⟨next, hnext⟩ := ih h
      exact ⟨next, .ask hnext⟩

theorem Reaches.eq_of_nil (h : p.Reaches [] q) : q = p := by
  generalize hnil : ([] : List Exchange) = es at h
  cases h with
  | start => rfl
  | ask => exact absurd hnil nofun

/-- after one more exchange a program stands where the answer leads -/
theorem reaches_concat_iff {e : Exchange} :
    p.Reaches (es ++ [e]) q ↔ ∃ next, p.Reaches es (.send e.request next) ∧ q = next e.answer := by
  constructor
  · intro h
    induction es generalizing p with
    | nil =>
      cases h with
      | ask h => exact ⟨_, .start _, h.eq_of_nil⟩
    | cons f es ih =>
      cases h with
      | ask h =>
        obtain ⟨next, hnext, hq⟩ := ih h
        exact ⟨next, .ask hnext, hq⟩
  · rintro ⟨next, h, rfl⟩
    generalize hsend : Program.send e.request next = sent at h
    induction h with
    | start p =>
      subst hsend
      exact .ask (.start _)
    | ask _ ih => exact .ask (ih hsend)

/-- a program followed by another says what the two of them say -/
theorem reaches_bind_iff {f : α → Program β} {y : β} : (p >>= f).Reaches es (.done y) ↔
    ∃ before after x, es = before ++ after ∧ p.Reaches before (.done x) ∧ (f x).Reaches after (.done y) := by
  constructor
  · intro h
    induction p generalizing es with
    | done x => exact ⟨[], es, x, rfl, .start _, h⟩
    | send r next ih =>
      rw [send_bind] at h
      cases h with
      | ask h =>
        obtain ⟨before, after, x, rfl, hfirst, hsecond⟩ := ih _ h
        exact ⟨_ :: before, after, x, rfl, .ask hfirst, hsecond⟩
  · rintro ⟨before, after, x, rfl, hfirst, hsecond⟩
    generalize hq : Program.done x = q at hfirst
    induction hfirst with
    | start p =>
      subst hq
      exact hsecond
    | ask _ ih => exact .ask (ih hq)

/-! ## Against a server -/

/-- what a program asks a server, with the answers that it gets -/
def conversation (serve : σ → Request → Answer × σ) : Program α → σ → List Exchange
  | .done _, _ => []
  | .send r next, s => ⟨r, (serve s r).1⟩ :: conversation serve (next (serve s r).1) (serve s r).2

/-- it leads to the result -/
theorem reaches_conversation (serve : σ → Request → Answer × σ) (p : Program α) (s : σ) :
    p.Reaches (p.conversation serve s) (.done (p.exec serve s).result) := by
  induction p generalizing s with
  | done x => exact .start _
  | send r next ih => exact .ask (ih _ _)

/-- and its requests are the ones that are sent -/
theorem map_request_conversation (serve : σ → Request → Answer × σ) (p : Program α) (s : σ) :
    (p.conversation serve s).map Exchange.request = (p.exec serve s).requests := by
  induction p generalizing s with
  | done x => rfl
  | send r next ih => exact congrArg (r :: ·) (ih _ _)

/-- every answer is one of the server -/
theorem exists_serve_of_mem_conversation {serve : σ → Request → Answer × σ} {s : σ} {e : Exchange}
    (h : e ∈ p.conversation serve s) : ∃ t, e.answer = (serve t e.request).1 := by
  induction p generalizing s with
  | done x => exact absurd h List.not_mem_nil
  | send r next ih =>
    rcases List.mem_cons.1 h with rfl | h
    · exact ⟨s, rfl⟩
    · exact ih _ h

end Program

/-! ## Actions -/

namespace Action

variable {α β : Type} {x : Action α} {f : α → Action β} {es : List Exchange} {result : Except OperatorError β}

/-- an action that fails says nothing more -/
theorem reaches_bind_iff : (x >>= f).run.Reaches es (.done result) ↔
    (∃ e, x.run.Reaches es (.done (.error e)) ∧ result = .error e) ∨
      ∃ before after a, es = before ++ after ∧ x.run.Reaches before (.done (.ok a)) ∧
        (f a).run.Reaches after (.done result) := by
  rw [ExceptT.run_bind, Program.reaches_bind_iff]
  constructor
  · rintro ⟨before, after, r, rfl, hfirst, hsecond⟩
    cases r with
    | ok a => exact Or.inr ⟨before, after, a, rfl, hfirst, hsecond⟩
    | error e =>
      obtain ⟨rfl, hdone⟩ := hsecond.of_done
      rw [List.append_nil]
      exact Or.inl ⟨e, hfirst, Program.done.inj hdone⟩
  · rintro (⟨e, hfirst, rfl⟩ | ⟨before, after, a, rfl, hfirst, hsecond⟩)
    · exact ⟨es, [], .error e, (List.append_nil es).symm, hfirst, .start _⟩
    · exact ⟨before, after, .ok a, rfl, hfirst, hsecond⟩

/-- a request is sent once, unless it cannot be built, and what is returned is what its answer decodes as -/
inductive Sent {α : Type} (codec : Codec α) (r : Request) : List Exchange → Except OperatorError α → Prop where
  | unsent {fault : RequestFault} (hf : r.fault? = some fault) : Sent codec r [] (.error (.unsendable fault))
  | answered (hf : r.fault? = none) (a : Answer) : Sent codec r [⟨r, a⟩] (decode codec a)

theorem reaches_request_iff {codec : Codec β} {r : Request} :
    (request codec r).run.Reaches es (.done result) ↔ Sent codec r es result := by
  unfold request send
  cases hf : r.fault? with
  | some fault =>
    constructor
    · intro h
      obtain ⟨rfl, hdone⟩ := Program.Reaches.of_done h
      obtain rfl := Program.done.inj hdone
      exact .unsent hf
    · intro h
      cases h with
      | unsent hf' =>
        obtain rfl := Option.some.inj (hf.symm.trans hf')
        exact .start _
      | answered hf' a => exact absurd (hf.symm.trans hf') nofun
  | none =>
    constructor
    · intro h
      obtain ⟨a, fs, rfl, hrest⟩ := Program.Reaches.exists_answer h
      obtain ⟨rfl, hdone⟩ := Program.Reaches.of_done hrest
      obtain rfl := Program.done.inj hdone
      exact .answered hf a
    · intro h
      cases h with
      | unsent hf' => exact absurd (hf.symm.trans hf') nofun
      | answered hf' a => exact .ask (.start _)

/-- what is sent for a request is the request -/
theorem Sent.request_eq {codec : Codec β} {r : Request} {e : Exchange} (h : Sent codec r es result) (he : e ∈ es) :
    e.request = r := by
  cases h with
  | unsent => exact absurd he List.not_mem_nil
  | answered hf a =>
    obtain rfl := List.mem_singleton.1 he
    rfl

theorem Sent.exists_answer {codec : Codec β} {r : Request} {y : β} (h : Sent codec r es (.ok y)) :
    ∃ a, es = [⟨r, a⟩] ∧ decode codec a = .ok y := by
  generalize hok : Except.ok y = answered at h
  cases h with
  | unsent => exact absurd hok nofun
  | answered hf a => exact ⟨a, rfl, rfl⟩

theorem Sent.length_le_one {codec : Codec β} {r : Request} (h : Sent codec r es result) : es.length ≤ 1 := by
  cases h with
  | unsent => exact Nat.zero_le 1
  | answered hf a => exact Nat.le_refl 1

end Action

end MigrationOperator
