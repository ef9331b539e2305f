/-
The pipeline stops at a failure.

The stages of the pipeline are a `Machine`, and `step_machine` says what each answer does to each of them. Besides a fatal
exchange a run has three reasons to fail (`Stage.Own`): what was listed fits no schema, there is more of it than one object,
or the object that was created and described is not read back. `failStop_run` is what follows for whole runs, and
`exists_done_of_absent` that the absence of what is read is no failure.
-/
import MigrationOperator.Proofs.Api.Failure
import MigrationOperator.Proofs.Pipeline.Conversation

namespace MigrationOperator.Pipeline

variable {c : Context} {s : Stage} {r : Request} {a : Answer} {e : OperatorError} {es : List Exchange}

/-! ## The machine -/

/-- the stages of the pipeline as a machine -/
def machine (c : Context) : Machine Stage Outcome where
  request? := Stage.request? c
  next := Stage.next
  result?
    | .finished rep => some rep.result
    | _ => none

/-- the request that a run comes to after a conversation -/
def due (c : Context) (es : List Exchange) : Option Request := Stage.request? c ((machine c).after .listing es)

theorem Runs.runs_machine {p : Program (Report Outcome)} (h : Runs c s p) : (machine c).Runs Report.result s p := by
  induction h with
  | finished rep => exact .finished rfl
  | blocked hr hf => exact .blocked hr hf rfl
  | sends hr _ _ ih => exact .sends hr ih

/-! ## What one answer does -/

/-- the reasons for which a run fails although the last answer is what was asked for -/
inductive Stage.Own : Stage → Answer → OperatorError → Prop where
  | unrecognized {a : Answer} {list : ObjectList} {u : Unrecognized} (hlist : Action.decode ObjectList.codec a = .ok list)
    (h : Candidates.classifyAll list.items = .error u) : Own .listing a (.unrecognized u)
  | tooMany {a : Answer} {list : ObjectList} {xs : List Classified} {t : TooManyInstances}
    (hlist : Action.decode ObjectList.codec a = .ok list) (hxs : Candidates.classifyAll list.items = .ok xs)
    (h : (Candidates.ofList xs).checkSingleton = .error t) : Own .listing a (.tooMany t)
  | unread {l : LegacyResource} {created : CanonicalResource} {a : Answer} {patched : Opaque} {d : DecodeError}
    (hpatched : Action.decode Opaque.codec a = .ok patched) (h : Canonical.kind.codec.decode patched.write = .error d) :
    Own (.describing l created) a (.serialization d)

/-- what is listed makes a run fail when an object fits no schema or when there are several -/
theorem step_of_listed {list : ObjectList} (hlist : Action.decode ObjectList.codec a = .ok list) :
    (machine c).Step Stage.Own .listing ⟨c.namespaceName, .list⟩ a := by
  have hfine : ∀ e, ¬ Exchange.Fatal ⟨⟨c.namespaceName, .list⟩, a⟩ e := fun _ =>
    Exchange.not_fatal_of_decode hlist id
  have hnext : Stage.listing.next a = .afterListing (Candidates.classifyAll list.items) := by rw [Stage.next, hlist]
  cases hxs : Candidates.classifyAll list.items with
  | error u =>
    rw [hxs] at hnext
    exact .own hfine (.unrecognized hlist hxs) (congrArg (machine c).error? hnext)
  | ok xs =>
    rw [hxs] at hnext
    rcases xs with _ | ⟨x, _ | ⟨y, xs⟩⟩
    · exact .of_decode hlist (fun _ => id) hnext rfl
    · cases x with
      | legacy x => exact .of_decode hlist (fun _ => id) hnext rfl
      | canonical x => exact .of_decode hlist (fun _ => id) hnext rfl
    · rw [Stage.afterListing_of_many] at hnext
      exact .own hfine (.tooMany hlist hxs (checkSingleton_of_many x y xs)) (congrArg (machine c).error? hnext)

theorem error?_afterLoading (l : LegacyResource) : (machine c).error? (.afterLoading l) = none := by
  rw [Stage.afterLoading]
  split
  · split
    · rfl
    · rfl
  · rfl

/-- what answers a status write that follows a creation is read as a resource -/
theorem step_of_described {l : LegacyResource} {created : CanonicalResource} {patched : Opaque}
    (hr : (Stage.describing l created).request? c = some r) (hpatched : Action.decode Opaque.codec a = .ok patched) :
    (machine c).Step Stage.Own (.describing l created) r a := by
  obtain rfl := Option.some.inj hr
  cases hx : Canonical.kind.codec.decode patched.write with
  | ok y =>
    have hnext : (Stage.describing l created).next a = .finished ⟨some ⟨1, 0⟩, .ok (.migrated y)⟩ := by
      rw [Stage.next, hpatched]
      dsimp only
      rw [hx]
      rfl
    exact .of_decode hpatched (fun _ => id) hnext rfl
  | error d =>
    have hnext : (Stage.describing l created).next a = .failed (.describing l created) (.serialization d) := by
      rw [Stage.next, hpatched]
      dsimp only
      rw [hx]
    exact .own (fun _ => Exchange.not_fatal_of_decode hpatched id) (.unread hpatched hx)
      (congrArg (machine c).error? hnext)

/-- **Each answer ends the run with its error, or is no failure.** -/
theorem step_machine (s : Stage) (r : Request) (a : Answer) (hr : s.request? c = some r) :
    (machine c).Step Stage.Own s r a := by
  cases s with
  | listing =>
    obtain rfl := Option.some.inj hr
    cases hlist : Action.decode ObjectList.codec a with
    | ok list => exact step_of_listed hlist
    | error e =>
      have hnext : Stage.listing.next a = Stage.missed .listing ⟨0, 0⟩ e := by rw [Stage.next, hlist]
      exact .of_missed (Answer.fails_iff.2 hlist) rfl hnext rfl rfl
  | loadingLegacy x =>
    obtain rfl := Option.some.inj hr
    cases hl : Action.decode Legacy.kind.codec a with
    | ok l =>
      have hnext : (Stage.loadingLegacy x).next a = .afterLoading l := by rw [Stage.next, hl]
      exact .of_decode hl (fun _ => id) hnext (error?_afterLoading l)
    | error e =>
      have hnext : (Stage.loadingLegacy x).next a = Stage.missed (.loadingLegacy x) ⟨1, 0⟩ e := by rw [Stage.next, hl]
      exact .of_missed (Answer.fails_iff.2 hl) rfl hnext rfl rfl
  | loadingCanonical x =>
    obtain rfl := Option.some.inj hr
    cases hy : Action.decode Canonical.kind.codec a with
    | ok y =>
      have hnext : (Stage.loadingCanonical x).next a = .finished ⟨some ⟨0, 1⟩, .ok .upToDate⟩ := by
        rw [Stage.next, hy]
        rfl
      exact .of_decode hy (fun _ => id) hnext rfl
    | error e =>
      have hnext : (Stage.loadingCanonical x).next a = Stage.missed (.loadingCanonical x) ⟨0, 1⟩ e := by
        rw [Stage.next, hy]
      exact .of_missed (Answer.fails_iff.2 hy) rfl hnext rfl rfl
  | patching l =>
    obtain rfl := Option.some.inj hr
    cases hpatched : Action.decode Opaque.codec a with
    | ok patched =>
      have hnext : (Stage.patching l).next a = .replacing l patched.metadata.resourceVersion := by
        rw [Stage.next, hpatched]
      exact .of_decode hpatched (fun _ => id) hnext rfl
    | error e =>
      have hnext : (Stage.patching l).next a = Stage.failed (.patching l) e := by rw [Stage.next, hpatched]
      exact .of_failed (Answer.fails_iff.2 hpatched) rfl hnext rfl
  | replacing l revision =>
    obtain rfl := Option.some.inj hr
    cases hy : Action.decode Canonical.kind.codec a with
    | ok y =>
      have hnext : (Stage.replacing l revision).next a = .finished ⟨some ⟨1, 0⟩, .ok (.migrated y)⟩ := by
        rw [Stage.next, hy]
        rfl
      exact .of_decode hy (fun _ => id) hnext rfl
    | error e =>
      have hnext : (Stage.replacing l revision).next a = Stage.failed (.replacing l revision) e := by rw [Stage.next, hy]
      exact .of_failed (Answer.fails_iff.2 hy) rfl hnext rfl
  | creating l =>
    obtain rfl := Option.some.inj hr
    cases hy : Action.decode Canonical.kind.codec a with
    | ok y =>
      have hnext : (Stage.creating l).next a = .describing l y := by rw [Stage.next, hy]
      exact .of_decode hy (fun _ => id) hnext rfl
    | error e =>
      have hnext : (Stage.creating l).next a = Stage.failed (.creating l) e := by rw [Stage.next, hy]
      exact .of_failed (Answer.fails_iff.2 hy) rfl hnext rfl
  | describing l created =>
    cases hpatched : Action.decode Opaque.codec a with
    | ok patched => exact step_of_described hr hpatched
    | error e =>
      obtain rfl := Option.some.inj hr
      have hnext : (Stage.describing l created).next a = Stage.failed (.describing l created) e := by
        rw [Stage.next, hpatched]
      exact .of_failed (Answer.fails_iff.2 hpatched) rfl hnext rfl
  | finished rep => cases hr

theorem disciplined_machine (c : Context) : (machine c).Disciplined Stage.Own where
  finished s last h := by
    cases s with
    | finished rep => rfl
    | _ => cases h
  step := step_machine

/-! ## What an object is read back from -/

theorem Stage.missed_ne_describing {census : Census} {l : LegacyResource} {created : CanonicalResource} :
    s.missed census e ≠ .describing l created := by
  intro h
  obtain ⟨rep, hrep⟩ := s.exists_missed_eq census e
  cases hrep.symm.trans h

theorem Stage.afterListing_ne_describing {result : Except Unrecognized (List Classified)} {l : LegacyResource}
    {created : CanonicalResource} : afterListing result ≠ .describing l created := by
  intro h
  rcases exists_afterListing_eq result with ⟨x, -, hx⟩ | ⟨x, -, hx⟩ | ⟨rep, hrep⟩
  · cases hx.symm.trans h
  · cases hx.symm.trans h
  · cases hrep.symm.trans h

theorem Stage.afterLoading_ne_describing {loaded l : LegacyResource} {created : CanonicalResource} :
    afterLoading loaded ≠ .describing l created := by
  intro h
  rcases exists_afterLoading_eq loaded with ⟨-, hs | hs⟩ | ⟨rep, hrep⟩
  · cases hs.symm.trans h
  · cases hs.symm.trans h
  · cases hrep.symm.trans h

/-- a status is written after the creation of the object that it is written of -/
theorem Stage.creating_of_next {l : LegacyResource} {created : CanonicalResource} (h : s.next a = .describing l created) :
    s = .creating l ∧ Action.decode Canonical.kind.codec a = .ok created := by
  cases s with
  | creating l' =>
    rw [next] at h
    split at h
    · rename_i y hy
      obtain ⟨rfl, rfl⟩ := Stage.describing.inj h
      exact ⟨rfl, hy⟩
    · cases h
  | listing =>
    rw [next] at h
    split at h
    · exact absurd h afterListing_ne_describing
    · exact absurd h missed_ne_describing
  | loadingLegacy x =>
    rw [next] at h
    split at h
    · exact absurd h afterLoading_ne_describing
    · exact absurd h missed_ne_describing
  | loadingCanonical x =>
    rw [next] at h
    split at h
    · cases h
    · exact absurd h missed_ne_describing
  | patching l' =>
    rw [next] at h
    split at h <;> cases h
  | replacing l' revision =>
    rw [next] at h
    split at h <;> cases h
  | describing l' created' =>
    rw [next] at h
    split at h
    · split at h <;> cases h
    · cases h
  | finished rep => cases h

/-- the exchange before a status write is the creation -/
theorem exists_creation {before : List Exchange} {q : Program (Report Outcome)} (hreach : (run c).Reaches before q)
    {l : LegacyResource} {created : CanonicalResource} (hs : (machine c).after .listing before = .describing l created) :
    ∃ pre b, before = pre ++ [⟨⟨c.namespaceName, .create .canonical (Canonical.kind.write (successor c l))⟩, b⟩] ∧
      Action.decode Canonical.kind.codec b = .ok created := by
  rcases (runs_run c).runs_machine.eq_nil_or_concat hreach with rfl | ⟨pre, ⟨r, b⟩, rfl, hr, hafter⟩
  · cases hs
  · rw [hafter] at hs
    obtain ⟨hcreating, hcreated⟩ := Stage.creating_of_next hs
    rw [hcreating] at hr
    obtain rfl := Option.some.inj hr
    exact ⟨pre, b, rfl, hcreated⟩

/-! ## Whole runs -/

/-- **A run stops at the first fatal exchange, and fails for no reason but the listed ones.** -/
theorem failStop_run (c : Context) : FailStop (run c) Report.result (due c) := by
  have hruns := (runs_run c).runs_machine
  refine ⟨fun es x e q hreach hx => hruns.stops (disciplined_machine c) hreach hx, fun es rep e hreach he => ?_⟩
  rcases hruns.cause (disciplined_machine c) rfl hreach he with
    ⟨r, fault, hr, hf, rfl⟩ | ⟨before, ⟨r, a⟩, rfl, hr, hfatal | hown⟩
  · exact .request hr hf
  · exact .answer rfl hfatal
  · generalize hs : (machine c).after .listing before = s at hr hown
    cases hown with
    | unrecognized hlist hu =>
      obtain rfl := Option.some.inj hr
      exact .unrecognized rfl hlist hu
    | tooMany hlist hxs ht =>
      obtain rfl := Option.some.inj hr
      exact .tooMany rfl hlist hxs ht
    | unread hpatched hd =>
      obtain rfl := Option.some.inj hr
      obtain ⟨next, hbefore⟩ := hreach.exists_of_append
      obtain ⟨pre, b, rfl, hb⟩ := exists_creation hbefore hs
      rw [List.append_assoc]
      exact .readBack rfl hb hpatched hd

/-! ## Absence -/

theorem Stage.exists_next_of_absent (hr : s.request? c = some r) (hread : r.isWrite = false) (ha : a.Absent) :
    ∃ census, s.next a = .finished ⟨some census, .ok .noResource⟩ := by
  cases s with
  | listing =>
    obtain ⟨e, he, hnotFound⟩ := ha.exists_decode_eq ObjectList.codec
    exact ⟨⟨0, 0⟩, by rw [next, he]; exact missed_of_isNotFound hnotFound _ _⟩
  | loadingLegacy x =>
    obtain ⟨e, he, hnotFound⟩ := ha.exists_decode_eq Legacy.kind.codec
    exact ⟨⟨1, 0⟩, by rw [next, he]; exact missed_of_isNotFound hnotFound _ _⟩
  | loadingCanonical x =>
    obtain ⟨e, he, hnotFound⟩ := ha.exists_decode_eq Canonical.kind.codec
    exact ⟨⟨0, 1⟩, by rw [next, he]; exact missed_of_isNotFound hnotFound _ _⟩
  | finished rep => cases hr
  | _ =>
    obtain rfl := Option.some.inj hr
    cases hread

/-- what is absent ends a run without an error -/
theorem exists_done_of_absent {x : Exchange} {q : Program (Report Outcome)} (hreach : (run c).Reaches (es ++ [x]) q)
    (hread : x.request.isWrite = false) (habsent : x.answer.Absent) :
    ∃ census, q = .done ⟨some census, .ok .noResource⟩ := by
  obtain ⟨hasks, hruns⟩ := (runs_run c).of_reaches hreach
  obtain ⟨-, hr, -⟩ := Stage.asks_append_iff.1 hasks
  obtain ⟨census, hnext⟩ := Stage.exists_next_of_absent hr hread habsent
  rw [Stage.after_concat, hnext] at hruns
  exact ⟨census, hruns.eq_done⟩

end MigrationOperator.Pipeline
