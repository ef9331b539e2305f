/-
Answers that fail, and runs that stop at them.

An answer fails when it reports an error, when there is none, or when its body does not decode as what was asked for
(`Answer.Fails`). What is read may be absent, and that is no fatal failure (`Exchange.Fatal`). A program is `FailStop` when
a fatal exchange is its last one and its error is returned as it is, and when it returns no error but for one of the causes
that `Cause` lists.

Programs are followed on a `Machine` of stages: each stage asks for one thing, and the answer decides the next stage. A
program that runs a machine is at the stage that its answers lead to (`Machine.Runs.of_reaches`), so what every step of the
machine does decides how its runs end (`Machine.Runs.stops`, `Machine.Runs.cause`).
-/
import MigrationOperator.Proofs.Api.Conversation
import MigrationOperator.Proofs.Store.Basic
import MigrationOperator.Resource.Secret

namespace MigrationOperator

/-! ## Answers that fail -/

/-- an answer without anything of the kind that was asked for, and the error that it stands for -/
inductive Answer.Fails {α : Type} (codec : Codec α) : Answer → OperatorError → Prop where
  | refused {code : Nat} (body : Body) (h : isErrorCode code = true) :
    Fails codec (.response code body) (.api (.ofResponse code body))
  | unreachable (message : String) : Fails codec (.unreachable message) (.unreachable message)
  | undecodable {code : Nat} {body : Body} {e : DecodeError} (h : isErrorCode code = false)
    (he : codec.decodeText body.reading = .error e) : Fails codec (.response code body) (.undecodable e)

namespace Answer

variable {α : Type} {codec : Codec α} {a : Answer} {e : OperatorError}

theorem fails_iff : a.Fails codec e ↔ Action.decode codec a = .error e := by
  constructor
  · intro h
    cases h with
    | refused body h => rw [Action.decode, if_pos h]
    | unreachable message => rfl
    | undecodable h he =>
      rw [Action.decode, h, he]
      rfl
  · intro h
    cases a with
    | unreachable message =>
      obtain rfl := Except.error.inj h
      exact .unreachable message
    | response code body =>
      rw [Action.decode] at h
      cases hcode : isErrorCode code with
      | true =>
        rw [if_pos hcode] at h
        obtain rfl := Except.error.inj h
        exact .refused body hcode
      | false =>
        rw [hcode] at h
        cases hbody : codec.decodeText body.reading with
        | ok x =>
          rw [hbody] at h
          cases h
        | error d =>
          rw [hbody] at h
          obtain rfl := Except.error.inj h
          exact .undecodable hcode hbody

/-- absence is told from the code of the status that the answer reports -/
theorem Fails.isNotFound_iff (h : a.Fails codec e) : e.isNotFound = true ↔ a.Absent := by
  constructor
  · intro he
    cases h with
    | refused body h => exact ⟨_, body, rfl, h, by simpa [OperatorError.isNotFound] using he⟩
    | unreachable message => cases he
    | undecodable h hd => cases he
  · intro habsent
    obtain ⟨e', he', hnotFound⟩ := habsent.exists_decode_eq codec
    obtain rfl := Except.error.inj ((fails_iff.1 h).symm.trans he')
    exact hnotFound

end Answer

/-- a conflict is an error of the cluster with that code, and nothing else -/
theorem OperatorError.isConflict_iff {e : OperatorError} :
    e.isConflict = true ↔ ∃ fault, e = .api fault ∧ fault.code = 409 := by
  cases e <;> simp [isConflict]

/-! ## Exchanges that fail -/

namespace Exchange

/-- the answer is none to what was asked -/
def Fails (x : Exchange) (e : OperatorError) : Prop :=
  match x.request.call with
  | .readSecret _ => x.answer.Fails Secret.codec e
  | .list => x.answer.Fails ObjectList.codec e
  | .read .legacy _ | .create .legacy _ | .replace .legacy _ _ => x.answer.Fails Legacy.kind.codec e
  | .read .canonical _ | .create .canonical _ | .replace .canonical _ _ => x.answer.Fails Canonical.kind.codec e
  | .patchStatus _ _ _ => x.answer.Fails Opaque.codec e

/-- a failure that is not the absence of what was to be read -/
structure Fatal (x : Exchange) (e : OperatorError) : Prop where
  fails : x.Fails e
  present : x.request.isWrite = false → ¬ x.answer.Absent

variable {x : Exchange} {e : OperatorError}

theorem Fails.isNotFound_iff (h : x.Fails e) : e.isNotFound = true ↔ x.answer.Absent := by
  unfold Fails at h
  split at h
  all_goals exact Answer.Fails.isNotFound_iff h

theorem Fails.unique {e' : OperatorError} (h : x.Fails e) (h' : x.Fails e') : e = e' := by
  unfold Fails at h h'
  split at h <;> simp_all only [Answer.fails_iff, Except.error.injEq]

theorem fatal_iff : x.Fatal e ↔ x.Fails e ∧ (x.request.isWrite = false → e.isNotFound = false) := by
  constructor
  · rintro ⟨hfails, hpresent⟩
    refine ⟨hfails, fun hread => ?_⟩
    have hnotFound := hfails.isNotFound_iff.not.2 (hpresent hread)
    simpa using hnotFound
  · rintro ⟨hfails, hpresent⟩
    refine ⟨hfails, fun hread habsent => ?_⟩
    have hnotFound := hfails.isNotFound_iff.2 habsent
    exact Bool.false_ne_true ((hpresent hread).symm.trans hnotFound)

/-- an answer that decodes as what was asked for is not fatal -/
theorem not_fatal_of_decode {α : Type} {codec : Codec α} {y : α} (hy : Action.decode codec x.answer = .ok y)
    (hcodec : x.Fails e → x.answer.Fails codec e) : ¬ x.Fatal e := by
  intro h
  have he := Answer.fails_iff.1 (hcodec h.fails)
  cases hy.symm.trans he

/-- every failure of a write is fatal -/
theorem Fails.fatal_of_isWrite (h : x.Fails e) (hw : x.request.isWrite = true) : x.Fatal e :=
  ⟨h, fun hread => absurd (hread.symm.trans hw) Bool.false_ne_true⟩

/-- absence is fatal to whoever writes, and to nobody else -/
theorem exists_fatal_iff_isWrite (h : x.answer.Absent) : (∃ e, x.Fatal e) ↔ x.request.isWrite = true := by
  constructor
  · rintro ⟨e, he⟩
    by_contra hread
    exact he.present (by simpa using hread) h
  · intro hw
    have hfails : ∃ e, x.Fails e := by
      unfold Fails
      split
      all_goals
        obtain ⟨e, he, -⟩ := h.exists_decode_eq _
        exact ⟨e, Answer.fails_iff.2 he⟩
    obtain ⟨e, he⟩ := hfails
    exact ⟨e, he.fatal_of_isWrite hw⟩

end Exchange

/-! ## Runs that stop at a failure -/

/-- what makes a run fail: `due` is the request that it comes to after a conversation -/
inductive Cause (due : List Exchange → Option Request) (es : List Exchange) : OperatorError → Prop where
  /-- the last answer -/
  | answer {before : List Exchange} {x : Exchange} {e : OperatorError} (hes : es = before ++ [x]) (h : x.Fatal e) :
    Cause due es e
  /-- a request that cannot be built -/
  | request {r : Request} {fault : RequestFault} (hr : due es = some r) (hf : r.fault? = some fault) :
    Cause due es (.unsendable fault)
  /-- an object of the list that fits no schema -/
  | unrecognized {before : List Exchange} {ns : String} {a : Answer} {list : ObjectList} {u : Unrecognized}
    (hes : es = before ++ [⟨⟨ns, .list⟩, a⟩]) (hlist : Action.decode ObjectList.codec a = .ok list)
    (h : Candidates.classifyAll list.items = .error u) : Cause due es (.unrecognized u)
  /-- more objects than one -/
  | tooMany {before : List Exchange} {ns : String} {a : Answer} {list : ObjectList} {xs : List Classified}
    {t : TooManyInstances} (hes : es = before ++ [⟨⟨ns, .list⟩, a⟩])
    (hlist : Action.decode ObjectList.codec a = .ok list)
    (hxs : Candidates.classifyAll list.items = .ok xs) (h : (Candidates.ofList xs).checkSingleton = .error t) :
    Cause due es (.tooMany t)
  /-- a creation and its status write were accepted, and what the latter answered is not read as a resource -/
  | readBack {before : List Exchange} {ns ns' name : String} {body patch : Json} {a b : Answer} {σ : Type} {k : Kind σ}
    {created : Resource σ} {patched : Opaque} {e : DecodeError}
    (hes : es = before ++ [⟨⟨ns, .create k.version body⟩, a⟩, ⟨⟨ns', .patchStatus k.version name patch⟩, b⟩])
    (hcreated : Action.decode k.codec a = .ok created) (hpatched : Action.decode Opaque.codec b = .ok patched)
    (h : k.codec.decode patched.write = .error e) : Cause due es (.serialization e)

/-- no program goes on after a fatal exchange: it returns the error of that one, and it returns no error without a cause -/
structure FailStop {α β : Type} (p : Program β) (result : β → Except OperatorError α)
    (due : List Exchange → Option Request) : Prop where
  stops : ∀ es x e q, p.Reaches (es ++ [x]) q → x.Fatal e → ∃ y, q = .done y ∧ result y = .error e
  cause : ∀ es y e, p.Reaches es (.done y) → result y = .error e → Cause due es e

/-! ## Machines -/

/-- stages that ask for one thing each, the stage that an answer leads to, and what a run returns at its last stage -/
structure Machine (S α : Type) where
  request? : S → Option Request
  next : S → Answer → S
  result? : S → Option (Except OperatorError α)

namespace Machine

variable {S α β : Type} {m : Machine S α} {result : β → Except OperatorError α} {s : S} {p q : Program β}
  {es : List Exchange}

/-- the error that a stage ends with -/
def error? (m : Machine S α) (s : S) : Option OperatorError :=
  match m.result? s with
  | some (.error e) => some e
  | _ => none

theorem error?_eq_some_iff {e : OperatorError} : m.error? s = some e ↔ m.result? s = some (.error e) := by
  rw [error?]
  split
  · rename_i d hd
    rw [hd, Option.some.injEq, Option.some.injEq, Except.error.injEq]
  · rename_i hother
    constructor
    · intro h
      cases h
    · intro h
      exact absurd h (hother e)

/-- the stage after a conversation -/
def after (m : Machine S α) (s : S) (es : List Exchange) : S := es.foldl (fun s x => m.next s x.answer) s

theorem after_concat (m : Machine S α) (s : S) (es : List Exchange) (x : Exchange) :
    m.after s (es ++ [x]) = m.next (m.after s es) x.answer := by
  simp [after, List.foldl_append]

/-- a program at a stage sends the request of the stage, unless it cannot be built, and goes on where the answer leads -/
inductive Runs (m : Machine S α) (result : β → Except OperatorError α) : S → Program β → Prop where
  | finished {s : S} {y : β} (h : m.result? s = some (result y)) : Runs m result s (.done y)
  | blocked {s : S} {r : Request} {fault : RequestFault} {y : β} (hr : m.request? s = some r)
    (hf : r.fault? = some fault) (hy : result y = .error (.unsendable fault)) : Runs m result s (.done y)
  | sends {s : S} {r : Request} {next : Answer → Program β} (hr : m.request? s = some r)
    (hnext : ∀ a, Runs m result (m.next s a) (next a)) : Runs m result s (.send r next)

/-- after a conversation, it is at the stage that the answers lead to -/
theorem Runs.of_reaches (h : m.Runs result s p) (hreach : p.Reaches es q) : m.Runs result (m.after s es) q := by
  induction hreach generalizing s with
  | start p => exact h
  | ask _ ih =>
    cases h with
    | sends _ hnext => exact ih (hnext _)

/-- what is asked is what its stage asks for -/
theorem Runs.request?_eq {before rest : List Exchange} {x : Exchange} (h : m.Runs result s p)
    (hreach : p.Reaches (before ++ x :: rest) q) : m.request? (m.after s before) = some x.request := by
  obtain ⟨next, hsend⟩ := hreach.exists_of_append
  cases h.of_reaches hsend with
  | sends hr _ => exact hr

/-- it is at its first stage, or its last answer led it to where it is -/
theorem Runs.eq_nil_or_concat (h : m.Runs result s p) (hreach : p.Reaches es q) :
    es = [] ∨ ∃ before x, es = before ++ [x] ∧ m.request? (m.after s before) = some x.request ∧
      m.after s es = m.next (m.after s before) x.answer := by
  rcases List.eq_nil_or_concat es with rfl | ⟨before, x, rfl⟩
  · exact Or.inl rfl
  · rw [List.concat_eq_append] at hreach ⊢
    exact Or.inr ⟨before, x, rfl, h.request?_eq hreach, after_concat m s before x⟩

/-- what one answer does: a fatal one ends the run with its error, and another one only for a reason of the machine's own -/
inductive Step (m : Machine S α) (own : S → Answer → OperatorError → Prop) (s : S) (r : Request) (a : Answer) : Prop where
  | fatal {e : OperatorError} (h : Exchange.Fatal ⟨r, a⟩ e) (hnext : m.error? (m.next s a) = some e)
  | own {e : OperatorError} (hfine : ∀ e, ¬ Exchange.Fatal ⟨r, a⟩ e) (h : own s a e)
    (hnext : m.error? (m.next s a) = some e)
  | proceeds (hfine : ∀ e, ¬ Exchange.Fatal ⟨r, a⟩ e) (hnext : m.error? (m.next s a) = none)

/-- every answer does one of these, and the last stage asks for nothing -/
structure Disciplined (m : Machine S α) (own : S → Answer → OperatorError → Prop) : Prop where
  finished : ∀ s last, m.result? s = some last → m.request? s = none
  step : ∀ s r a, m.request? s = some r → m.Step own s r a

variable {own : S → Answer → OperatorError → Prop} {r : Request} {a : Answer} {e : OperatorError}

theorem Step.error?_of_fatal (h : m.Step own s r a) (he : Exchange.Fatal ⟨r, a⟩ e) :
    m.error? (m.next s a) = some e := by
  cases h with
  | fatal h hnext =>
    obtain rfl := h.fails.unique he.fails
    exact hnext
  | own hfine _ _ => exact absurd he (hfine e)
  | proceeds hfine _ => exact absurd he (hfine e)

theorem Step.cause_of_error? (h : m.Step own s r a) (he : m.error? (m.next s a) = some e) :
    Exchange.Fatal ⟨r, a⟩ e ∨ own s a e := by
  cases h with
  | fatal h hnext =>
    obtain rfl := Option.some.inj (hnext.symm.trans he)
    exact Or.inl h
  | own _ h hnext =>
    obtain rfl := Option.some.inj (hnext.symm.trans he)
    exact Or.inr h
  | proceeds _ hnext => cases hnext.symm.trans he

/-- an answer that decodes as what was asked for leads on, provided that its stage is not one of an error -/
theorem Step.of_decode {γ : Type} {codec : Codec γ} {z : γ} {s' : S} (hz : Action.decode codec a = .ok z)
    (hcodec : ∀ e, Exchange.Fails ⟨r, a⟩ e → a.Fails codec e) (hnext : m.next s a = s')
    (hs' : m.error? s' = none) : m.Step own s r a :=
  .proceeds (fun e => Exchange.not_fatal_of_decode hz (hcodec e)) (hnext ▸ hs')

/-- a failure to read what may be absent -/
theorem Step.of_missed {absent failed : S} (he : Exchange.Fails ⟨r, a⟩ e) (hread : r.isWrite = false)
    (hnext : m.next s a = if e.isNotFound then absent else failed)
    (habsent : m.error? absent = none) (hfailed : m.error? failed = some e) : m.Step own s r a := by
  cases hnotFound : e.isNotFound with
  | false =>
    rw [hnotFound, if_neg Bool.false_ne_true] at hnext
    exact .fatal (Exchange.fatal_iff.2 ⟨he, fun _ => hnotFound⟩) (hnext ▸ hfailed)
  | true =>
    rw [hnotFound, if_pos rfl] at hnext
    refine .proceeds (fun e' h => ?_) (hnext ▸ habsent)
    obtain rfl := he.unique h.fails
    exact h.present hread (he.isNotFound_iff.1 hnotFound)

/-- a failure to write -/
theorem Step.of_failed {failed : S} (he : Exchange.Fails ⟨r, a⟩ e) (hw : r.isWrite = true) (hnext : m.next s a = failed)
    (hfailed : m.error? failed = some e) : m.Step own s r a :=
  .fatal (he.fatal_of_isWrite hw) (hnext ▸ hfailed)

/-- at its last stage a program is over -/
theorem Runs.exists_done (hm : m.Disciplined own) (h : m.Runs result s p) {last : Except OperatorError α}
    (hs : m.result? s = some last) : ∃ y, p = .done y ∧ result y = last := by
  have hnone := hm.finished s last hs
  cases h with
  | finished h => exact ⟨_, rfl, Option.some.inj (h.symm.trans hs)⟩
  | blocked hr _ _ => cases hr.symm.trans hnone
  | sends hr _ => cases hr.symm.trans hnone

/-- no run goes on after a fatal exchange -/
theorem Runs.stops (hm : m.Disciplined own) (h : m.Runs result s p) {x : Exchange} (hreach : p.Reaches (es ++ [x]) q)
    (hx : x.Fatal e) : ∃ y, q = .done y ∧ result y = .error e := by
  have hlast := h.of_reaches hreach
  rw [after_concat] at hlast
  have herror := (hm.step _ _ _ (h.request?_eq hreach)).error?_of_fatal hx
  exact hlast.exists_done hm (error?_eq_some_iff.1 herror)

/-- a run that starts before its last stage comes to an error by a request that cannot be built, or by its last answer, which
is fatal unless the machine has a reason of its own -/
theorem Runs.cause (hm : m.Disciplined own) (h : m.Runs result s p) (hs : m.result? s = none) {y : β}
    (hreach : p.Reaches es (.done y)) (hy : result y = .error e) :
    (∃ r fault, m.request? (m.after s es) = some r ∧ r.fault? = some fault ∧ e = .unsendable fault) ∨
      ∃ before x, es = before ++ [x] ∧ m.request? (m.after s before) = some x.request ∧
        (x.Fatal e ∨ own (m.after s before) x.answer e) := by
  cases h.of_reaches hreach with
  | blocked hr hf hblocked => exact Or.inl ⟨_, _, hr, hf, Except.error.inj (hy.symm.trans hblocked)⟩
  | finished hlast =>
    rcases h.eq_nil_or_concat hreach with rfl | ⟨before, x, rfl, hr, hafter⟩
    · cases hs.symm.trans hlast
    · rw [hafter, hy] at hlast
      exact Or.inr ⟨before, x, rfl, hr, (hm.step _ _ _ hr).cause_of_error? (error?_eq_some_iff.2 hlast)⟩

end Machine

end MigrationOperator
