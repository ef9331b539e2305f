/-
An attempt at adoption stops at a failure.

The stages of an attempt are a `Machine`, and `step_machine` says what each answer does to each of them. Besides a fatal
exchange an attempt has one reason to fail (`Stage.Own`): the object that was created and described is not read back.
`failStop_attempt` is what follows for whole attempts. An absent secret marks no installation (`eq_done_of_absent_secret`),
and an absent list is one of nothing (`reaches_of_absent_list`).
-/
import MigrationOperator.Proofs.Adoption.Stage
import MigrationOperator.Proofs.Api.Failure

namespace MigrationOperator.Adoption

variable {c : Context} {stage : Stage} {r : Request} {a : Answer} {e : OperatorError} {es : List Exchange}
  {p q : Program (Except OperatorError Adoption)}

/-! ## The machine -/

/-- the stages of an attempt as a machine -/
def machine (c : Context) : Machine Stage Adoption where
  request? := Stage.request? c
  next := Stage.next c
  result?
    | .finished result => some result
    | _ => none

/-- the request that an attempt comes to after a conversation -/
def due (c : Context) (es : List Exchange) : Option Request :=
  Stage.request? c ((machine c).after .readingSecret es)

theorem Runs.runs_machine (h : Runs c stage p) : (machine c).Runs id stage p := by
  induction h with
  | finished result => exact .finished rfl
  | blocked hr hf => exact .blocked hr hf rfl
  | sends hr _ _ ih => exact .sends hr ih

/-! ## What one answer does -/

/-- the reason for which an attempt fails although the last answer is what was asked for -/
inductive Stage.Own : Stage → Answer → OperatorError → Prop where
  | unread {s : Settings} {created : LegacyResource} {a : Answer} {patched : Opaque} {d : DecodeError}
    (hpatched : Action.decode Opaque.codec a = .ok patched) (h : Legacy.kind.codec.decode patched.write = .error d) :
    Own (.describing s created) a (.serialization d)

theorem error?_afterReading (s : Settings) : (machine c).error? (.afterReading s) = none := by
  rw [Stage.afterReading]
  split
  · rfl
  · rfl

theorem error?_afterListing (s : Settings) (existing : List Opaque) :
    (machine c).error? (.afterListing c s existing) = none := by
  rw [Stage.afterListing]
  split
  · rfl
  · split
    · rfl
    · rfl

/-- what answers a status write that follows a creation is read as a resource -/
theorem step_of_described {s : Settings} {created : LegacyResource} {patched : Opaque}
    (hr : (Stage.describing s created).request? c = some r) (hpatched : Action.decode Opaque.codec a = .ok patched) :
    (machine c).Step Stage.Own (.describing s created) r a := by
  obtain rfl := Option.some.inj hr
  cases hx : Legacy.kind.codec.decode patched.write with
  | ok x =>
    have hnext : (Stage.describing s created).next c a = .finished (.ok (.adopted x.name)) := by
      rw [Stage.next, hpatched]
      dsimp only
      rw [hx]
    exact .of_decode hpatched (fun _ => id) hnext rfl
  | error d =>
    have hnext : (Stage.describing s created).next c a = .failed (.serialization d) := by
      rw [Stage.next, hpatched]
      dsimp only
      rw [hx]
    exact .own (fun _ => Exchange.not_fatal_of_decode hpatched id) (.unread hpatched hx)
      (congrArg (machine c).error? hnext)

/-- **Each answer ends the attempt with its error, or is no failure.** -/
theorem step_machine (stage : Stage) (r : Request) (a : Answer) (hr : stage.request? c = some r) :
    (machine c).Step Stage.Own stage r a := by
  cases stage with
  | readingSecret =>
    obtain rfl := Option.some.inj hr
    cases hsecret : Action.decode Secret.codec a with
    | ok secret =>
      have hnext : Stage.readingSecret.next c a = .afterReading (.ofSecret secret) := by rw [Stage.next, hsecret]
      exact .of_decode hsecret (fun _ => id) hnext (error?_afterReading _)
    | error e =>
      have hnext : Stage.readingSecret.next c a = if e.isNotFound then .finished (.ok .notLegacy) else .failed e := by
        rw [Stage.next, hsecret]
      exact .of_missed (Answer.fails_iff.2 hsecret) rfl hnext rfl rfl
  | listing s =>
    obtain rfl := Option.some.inj hr
    cases hlist : Action.decode ObjectList.codec a with
    | ok list =>
      have hnext : (Stage.listing s).next c a = .afterListing c s list.items := by rw [Stage.next, hlist]
      exact .of_decode hlist (fun _ => id) hnext (error?_afterListing s list.items)
    | error e =>
      have hnext : (Stage.listing s).next c a = if e.isNotFound then .creating s else .failed e := by
        rw [Stage.next, hlist]
      exact .of_missed (Answer.fails_iff.2 hlist) rfl hnext rfl rfl
  | creating s =>
    obtain rfl := Option.some.inj hr
    cases hcreated : Action.decode Legacy.kind.codec a with
    | ok created =>
      have hnext : (Stage.creating s).next c a = .describing s created := by rw [Stage.next, hcreated]
      exact .of_decode hcreated (fun _ => id) hnext rfl
    | error e =>
      have hnext : (Stage.creating s).next c a = .failed e := by rw [Stage.next, hcreated]
      exact .of_failed (Answer.fails_iff.2 hcreated) rfl hnext rfl
  | describing s created =>
    cases hpatched : Action.decode Opaque.codec a with
    | ok patched => exact step_of_described hr hpatched
    | error e =>
      obtain rfl := Option.some.inj hr
      have hnext : (Stage.describing s created).next c a = .failed e := by rw [Stage.next, hpatched]
      exact .of_failed (Answer.fails_iff.2 hpatched) rfl hnext rfl
  | resuming s pending =>
    obtain rfl := Option.some.inj hr
    cases hpatched : Action.decode Opaque.codec a with
    | ok patched =>
      have hnext : (Stage.resuming s pending).next c a = .finished (.ok (.adopted pending.name)) := by
        rw [Stage.next, hpatched]
      exact .of_decode hpatched (fun _ => id) hnext rfl
    | error e =>
      have hnext : (Stage.resuming s pending).next c a = .failed e := by rw [Stage.next, hpatched]
      exact .of_failed (Answer.fails_iff.2 hpatched) rfl hnext rfl
  | finished result => cases hr

theorem disciplined_machine (c : Context) : (machine c).Disciplined Stage.Own where
  finished stage last h := by
    cases stage with
    | finished result => rfl
    | _ => cases h
  step := step_machine

/-! ## What an object is read back from -/

theorem Stage.afterListing_ne_describing {s s' : Settings} {existing : List Opaque} {created : LegacyResource} :
    afterListing c s existing ≠ .describing s' created := by
  intro h
  rw [afterListing] at h
  split at h
  · cases h
  · split at h
    · cases h
    · cases h

/-- a status is written after the creation of the object that it is written of, unless that was unfinished -/
theorem Stage.creating_of_next {s : Settings} {created : LegacyResource} (h : stage.next c a = .describing s created) :
    stage = .creating s ∧ Action.decode Legacy.kind.codec a = .ok created := by
  cases stage with
  | creating s' =>
    rw [next] at h
    split at h
    · rename_i y hy
      obtain ⟨rfl, rfl⟩ := Stage.describing.inj h
      exact ⟨rfl, hy⟩
    · cases h
  | readingSecret =>
    rcases next_readingSecret_cases c a with ⟨s', hs'⟩ | ⟨result, hresult⟩
    · cases hs'.symm.trans h
    · cases hresult.symm.trans h
  | listing s' =>
    rw [next] at h
    split at h
    · exact absurd h afterListing_ne_describing
    · split at h <;> cases h
  | describing s' created' =>
    obtain ⟨result, hresult⟩ := exists_next_describing c s' created' a
    cases hresult.symm.trans h
  | resuming s' pending =>
    obtain ⟨result, hresult⟩ := exists_next_resuming c s' pending a
    cases hresult.symm.trans h
  | finished result => cases h

/-- the exchange before such a status write is the creation -/
theorem exists_creation {before : List Exchange} (hreach : (attempt c).run.Reaches before q) {s : Settings}
    {created : LegacyResource} (hs : (machine c).after .readingSecret before = .describing s created) :
    ∃ pre b, before = pre ++ [⟨⟨c.namespaceName, .create .legacy (Legacy.kind.write (s.toResource c.namespaceName))⟩, b⟩] ∧
      Action.decode Legacy.kind.codec b = .ok created := by
  rcases (runs_attempt c).runs_machine.eq_nil_or_concat hreach with rfl | ⟨pre, ⟨r, b⟩, rfl, hr, hafter⟩
  · cases hs
  · rw [hafter] at hs
    obtain ⟨hcreating, hcreated⟩ := Stage.creating_of_next hs
    rw [hcreating] at hr
    obtain rfl := Option.some.inj hr
    exact ⟨pre, b, rfl, hcreated⟩

/-! ## Whole attempts -/

/-- **An attempt stops at the first fatal exchange, and fails for no reason but the listed ones.** -/
theorem failStop_attempt (c : Context) : FailStop (attempt c).run id (due c) := by
  have hruns := (runs_attempt c).runs_machine
  refine ⟨fun es x e q hreach hx => hruns.stops (disciplined_machine c) hreach hx, fun es result e hreach he => ?_⟩
  rcases hruns.cause (disciplined_machine c) rfl hreach he with
    ⟨r, fault, hr, hf, rfl⟩ | ⟨before, ⟨r, a⟩, rfl, hr, hfatal | hown⟩
  · exact .request hr hf
  · exact .answer rfl hfatal
  · generalize hs : (machine c).after .readingSecret before = stage at hr hown
    cases hown with
    | unread hpatched hd =>
      obtain rfl := Option.some.inj hr
      obtain ⟨next, hbefore⟩ := hreach.exists_of_append
      obtain ⟨pre, b, rfl, hb⟩ := exists_creation hbefore hs
      rw [List.append_assoc]
      exact .readBack rfl hb hpatched hd

/-! ## Absence -/

/-- programs at a stage are the same -/
theorem Runs.unique (hp : Runs c stage p) (hq : Runs c stage q) : p = q := by
  induction hp generalizing q with
  | finished result => exact hq.eq_done.symm
  | blocked hr hf =>
    cases hq with
    | finished => cases hr
    | blocked hr' hf' =>
      obtain rfl := Option.some.inj (hr.symm.trans hr')
      obtain rfl := Option.some.inj (hf.symm.trans hf')
      rfl
    | sends hr' hf' _ =>
      obtain rfl := Option.some.inj (hr.symm.trans hr')
      cases hf.symm.trans hf'
  | sends hr hf _ ih =>
    obtain ⟨next, rfl, hnext⟩ := hq.exists_send hr hf
    exact congrArg _ (funext fun a => ih a (hnext a))

/-- an absent secret marks no installation -/
theorem eq_done_of_absent_secret {ns name : String}
    (hreach : (attempt c).run.Reaches (es ++ [⟨⟨ns, .readSecret name⟩, a⟩]) q) (ha : a.Absent) :
    q = .done (.ok .notLegacy) := by
  obtain ⟨next, hbefore, rfl⟩ := Program.reaches_concat_iff.1 hreach
  obtain ⟨stage, hstage⟩ := (runs_attempt c).of_reaches hbefore
  obtain ⟨hr, hnext⟩ := hstage.of_send
  cases stage with
  | readingSecret =>
    obtain ⟨e, he, hnotFound⟩ := ha.exists_decode_eq Secret.codec
    have hlast := hnext a
    rw [Stage.next, he] at hlast
    dsimp only at hlast
    rw [if_pos hnotFound] at hlast
    exact hlast.eq_done
  | _ => cases hr

/-- an absent list is one of nothing: the attempt goes on as after any answer that lists nothing -/
theorem reaches_of_absent_list {ns : String} (hreach : (attempt c).run.Reaches (es ++ [⟨⟨ns, .list⟩, a⟩]) q)
    (ha : a.Absent) {b : Answer} {list : ObjectList} (hb : Action.decode ObjectList.codec b = .ok list)
    (hempty : list.items = []) : (attempt c).run.Reaches (es ++ [⟨⟨ns, .list⟩, b⟩]) q := by
  obtain ⟨next, hbefore, rfl⟩ := Program.reaches_concat_iff.1 hreach
  obtain ⟨stage, hstage⟩ := (runs_attempt c).of_reaches hbefore
  obtain ⟨hr, hnext⟩ := hstage.of_send
  refine Program.reaches_concat_iff.2 ⟨next, hbefore, ?_⟩
  cases stage with
  | listing s =>
    obtain ⟨e, he, hnotFound⟩ := ha.exists_decode_eq ObjectList.codec
    have habsent : (Stage.listing s).next c a = .creating s := by
      rw [Stage.next, he]
      exact if_pos hnotFound
    have hnothing : (Stage.listing s).next c b = .creating s := by
      rw [Stage.next, hb]
      dsimp only
      rw [hempty]
      rfl
    exact (habsent ▸ hnext a).unique (hnothing ▸ hnext b)
  | _ => cases hr

end MigrationOperator.Adoption
