/-
An attempt at adoption as a machine of stages.

At each `Stage` an attempt has one request to send, and the answer decides the stage after it. An attempt that read the
settings of an installation goes to `listing`, from there over `creating` to `describing` when nothing is listed, and to
`resuming` when what is listed is unfinished. `Runs` ties programs to stages, and `runs_attempt` says that
`Adoption.attempt` is at `readingSecret`.
-/
import MigrationOperator.Adoption
import MigrationOperator.Proofs.Api.Conversation

namespace MigrationOperator.Adoption

/-- a status patch as it is sent -/
def statusRequest (c : Context) (r : LegacyResource) (status : Status) : Request :=
  ⟨r.metadata.namespaceName.getD c.defaultNamespace,
    .patchStatus .legacy r.name (Writing.statusPatch r.metadata.resourceVersion status)⟩

/-- what an attempt is about to ask for -/
inductive Stage where
  | readingSecret
  /-- the settings are those of an installation -/
  | listing (s : Settings)
  /-- nothing was listed -/
  | creating (s : Settings)
  /-- the object was created -/
  | describing (s : Settings) (created : LegacyResource)
  /-- an unfinished object was listed -/
  | resuming (s : Settings) (pending : LegacyResource)
  | finished (r : Except OperatorError Adoption)

namespace Stage

/-- the request of a stage, unless the attempt is finished -/
def request? (c : Context) : Stage → Option Request
  | .readingSecret => some ⟨c.namespaceName, .readSecret c.secretName⟩
  | .listing _ => some ⟨c.namespaceName, .list⟩
  | .creating s => some ⟨c.namespaceName, .create .legacy (Legacy.kind.write (s.toResource c.namespaceName))⟩
  | .describing s created =>
    some (statusRequest c ((s.toResource c.namespaceName).atRevision created.metadata.resourceVersion) s.status)
  | .resuming s pending => some (statusRequest c pending s.status)
  | .finished _ => none

def failed (e : OperatorError) : Stage := .finished (.error e)

/-- after the secret was read -/
def afterReading (s : Settings) : Stage := if s.isLegacy then .listing s else .finished (.ok .notLegacy)

/-- after the objects were listed -/
def afterListing (c : Context) (s : Settings) (existing : List Opaque) : Stage :=
  if existing.isEmpty then .creating s
  else
    match unfinished? existing (s.toResource c.namespaceName) with
    | some pending => .resuming s pending
    | none => .finished (.ok .alreadyManaged)

/-- the stage after an answer -/
def next (c : Context) (stage : Stage) (a : Answer) : Stage :=
  match stage with
  | .readingSecret =>
    match Action.decode Secret.codec a with
    | .ok secret => afterReading (.ofSecret secret)
    | .error e => if e.isNotFound then .finished (.ok .notLegacy) else failed e
  | .listing s =>
    match Action.decode ObjectList.codec a with
    | .ok l => afterListing c s l.items
    | .error e => if e.isNotFound then .creating s else failed e
  | .creating s =>
    match Action.decode Legacy.kind.codec a with
    | .ok created => .describing s created
    | .error e => failed e
  | .describing _ _ =>
    match Action.decode Opaque.codec a with
    | .ok patched =>
      match Legacy.kind.codec.decode patched.write with
      | .ok x => .finished (.ok (.adopted x.name))
      | .error e => failed (.serialization e)
    | .error e => failed e
  | .resuming _ pending =>
    match Action.decode Opaque.codec a with
    | .ok _ => .finished (.ok (.adopted pending.name))
    | .error e => failed e
  | .finished r => .finished r

/-! ### Where an answer may lead -/

/-- after the secret was read, the objects are to be listed or the attempt is over -/
theorem next_readingSecret_cases (c : Context) (a : Answer) :
    (∃ s, readingSecret.next c a = .listing s) ∨ ∃ result, readingSecret.next c a = .finished result := by
  rw [next]
  cases Action.decode Secret.codec a with
  | ok secret =>
    dsimp only [afterReading]
    split
    · exact Or.inl ⟨_, rfl⟩
    · exact Or.inr ⟨_, rfl⟩
  | error e =>
    dsimp only
    split
    · exact Or.inr ⟨_, rfl⟩
    · exact Or.inr ⟨_, rfl⟩

/-- after a status was written, the attempt is over -/
theorem exists_next_describing (c : Context) (s : Settings) (created : LegacyResource) (a : Answer) :
    ∃ result, (describing s created).next c a = .finished result := by
  rw [next]
  cases Action.decode Opaque.codec a with
  | error e => exact ⟨_, rfl⟩
  | ok patched =>
    dsimp only
    cases Legacy.kind.codec.decode patched.write with
    | ok x => exact ⟨_, rfl⟩
    | error e => exact ⟨_, rfl⟩

theorem exists_next_resuming (c : Context) (s : Settings) (pending : LegacyResource) (a : Answer) :
    ∃ result, (resuming s pending).next c a = .finished result := by
  rw [next]
  cases Action.decode Opaque.codec a with
  | ok patched => exact ⟨_, rfl⟩
  | error e => exact ⟨_, rfl⟩

end Stage

/-! ## Programs at a stage -/

/-- a program at a stage sends the request of the stage, unless it cannot be sent, and goes on where the answer leads -/
inductive Runs (c : Context) : Stage → Program (Except OperatorError Adoption) → Prop where
  | finished (r : Except OperatorError Adoption) : Runs c (.finished r) (.done r)
  | blocked {stage : Stage} {r : Request} {fault : RequestFault} (hr : stage.request? c = some r)
    (hf : r.fault? = some fault) : Runs c stage (.done (.error (.unsendable fault)))
  | sends {stage : Stage} {r : Request} {next : Answer → Program (Except OperatorError Adoption)}
    (hr : stage.request? c = some r) (hf : r.fault? = none) (hnext : ∀ a, Runs c (stage.next c a) (next a)) :
    Runs c stage (.send r next)

variable {c : Context} {stage : Stage} {r : Request} {p : Program (Except OperatorError Adoption)}

/-- a program that is about to send is at a stage with this request -/
theorem Runs.of_send {next : Answer → Program (Except OperatorError Adoption)} (h : Runs c stage (.send r next)) :
    stage.request? c = some r ∧ ∀ a, Runs c (stage.next c a) (next a) := by
  cases h with
  | sends hr _ hnext => exact ⟨hr, hnext⟩

theorem Runs.eq_done {result : Except OperatorError Adoption} (h : Runs c (.finished result) p) : p = .done result := by
  cases h with
  | finished => rfl
  | blocked hr _ => exact absurd hr nofun
  | sends hr _ _ => exact absurd hr nofun

/-- a program at a stage is at one after every conversation -/
theorem Runs.of_reaches {es : List Exchange} {q : Program (Except OperatorError Adoption)} (h : Runs c stage p)
    (hreach : p.Reaches es q) : ∃ stage', Runs c stage' q := by
  induction hreach generalizing stage with
  | start p => exact ⟨stage, h⟩
  | ask _ ih => exact ih (h.of_send.2 _)

/-- a program at a stage sends the request of the stage, provided that it has no fault -/
theorem Runs.exists_send (h : Runs c stage p) (hr : stage.request? c = some r) (hf : r.fault? = none) :
    ∃ next, p = .send r next ∧ ∀ a, Runs c (stage.next c a) (next a) := by
  cases h with
  | finished => exact absurd hr nofun
  | blocked hr' hf' =>
    obtain rfl := Option.some.inj (hr.symm.trans hr')
    exact absurd (hf.symm.trans hf') nofun
  | sends hr' _ hnext =>
    obtain rfl := Option.some.inj (hr.symm.trans hr')
    exact ⟨_, rfl, hnext⟩

/-- a program that starts with the request of a stage is at the stage -/
theorem runs_request {α : Type} {codec : Codec α} {f : Except OperatorError α → Program (Except OperatorError Adoption)}
    (hr : stage.request? c = some r)
    (hblocked : ∀ fault, f (.error (.unsendable fault)) = .done (.error (.unsendable fault)))
    (hnext : ∀ a, Runs c (stage.next c a) (f (Action.decode codec a))) :
    Runs c stage ((Action.request codec r).run >>= f) := by
  unfold Action.request Action.send
  cases hf : r.fault? with
  | some fault =>
    show Runs c stage (f (.error (.unsendable fault)))
    rw [hblocked]
    exact .blocked hr hf
  | none => exact .sends hr hf hnext

/-! ## The attempt, stage by stage -/

/-- an unfinished object stands alone, has the name and the spec of the expected one and states no phase -/
theorem exists_of_unfinished {xs : List Opaque} {expected pending : LegacyResource}
    (h : unfinished? xs expected = some pending) :
    ∃ x found, xs = [x] ∧ x.name = Canonical.defaultName ∧ statedPhase x = none ∧
      Legacy.kind.codec.decode x.write = .ok found ∧ found.spec = expected.spec ∧
      pending = { found with status := expected.status } := by
  unfold unfinished? at h
  split at h
  · rename_i x
    split at h
    · exact absurd h nofun
    · rename_i hguard
      obtain ⟨hname, hphase⟩ := not_or.1 hguard
      split at h
      · rename_i found hfound
        split at h
        · rename_i hspec
          exact ⟨x, found, rfl, Decidable.not_not.1 hname, Option.not_isSome_iff_eq_none.1 hphase, hfound, hspec,
            (Option.some.inj h).symm⟩
        · exact absurd h nofun
      · exact absurd h nofun
  · exact absurd h nofun

/-- and such an object is unfinished -/
theorem unfinished?_of_decode {x : Opaque} {found expected : LegacyResource} (hname : x.name = Canonical.defaultName)
    (hphase : statedPhase x = none) (hfound : Legacy.kind.codec.decode x.write = .ok found)
    (hspec : found.spec = expected.spec) :
    unfinished? [x] expected = some { found with status := expected.status } := by
  have hguard : ¬ (x.name ≠ Canonical.defaultName ∨ (statedPhase x).isSome = true) := by
    rw [hname, hphase]
    simp
  rw [unfinished?, if_neg hguard, hfound]
  exact if_pos hspec

/-- it gets the status of the expected one -/
theorem status_of_unfinished {xs : List Opaque} {expected pending : LegacyResource}
    (h : unfinished? xs expected = some pending) : pending.status = expected.status := by
  obtain ⟨x, found, -, -, -, -, -, rfl⟩ := exists_of_unfinished h
  rfl

/-- once the object was created, its status is written -/
theorem runs_creating (c : Context) (s : Settings) :
    Runs c (.creating s) ((Writing.upsert c Legacy.kind (s.toResource c.namespaceName)).run >>= fun r =>
      .done (r.map fun created => .adopted created.name)) := by
  have hcreate : Writing.upsert c Legacy.kind (s.toResource c.namespaceName) =
      Writing.create c Legacy.kind (s.toResource c.namespaceName) := rfl
  have hstatus : ∀ revision, ((s.toResource c.namespaceName).atRevision revision).status = some s.status := fun _ => rfl
  rw [hcreate]
  simp only [Writing.create, Writing.writeStatus, hstatus, ExceptT.run_bind, pure_bind, bind_assoc]
  refine runs_request rfl (fun _ => rfl) fun a => ?_
  rw [Stage.next]
  cases Action.decode Legacy.kind.codec a with
  | error e => exact .finished _
  | ok created =>
    simp only [bind_assoc]
    refine runs_request rfl (fun _ => rfl) fun a => ?_
    rw [Stage.next]
    cases Action.decode Opaque.codec a with
    | error e => exact .finished _
    | ok patched =>
      dsimp only [Writing.readBack]
      cases Legacy.kind.codec.decode patched.write with
      | ok x => exact .finished _
      | error e => exact .finished _

/-- the status of an unfinished object is written -/
theorem runs_resuming (c : Context) {s : Settings} {pending : LegacyResource} (h : pending.status = some s.status) :
    Runs c (.resuming s pending) ((Writing.writeStatus c Legacy.kind pending).run >>= fun r =>
      .done (r.map fun _ => .adopted pending.name)) := by
  simp only [Writing.writeStatus, h, ExceptT.run_bind, bind_assoc]
  refine runs_request rfl (fun _ => rfl) fun a => ?_
  rw [Stage.next]
  cases Action.decode Opaque.codec a with
  | ok patched => exact .finished _
  | error e => exact .finished _

/-- what was listed decides how the attempt goes on -/
theorem runs_afterListing (c : Context) (s : Settings) (existing : List Opaque) :
    Runs c (.afterListing c s existing) (ExceptT.run <| if existing.isEmpty then do
        let created ← Writing.upsert c Legacy.kind (s.toResource c.namespaceName)
        return .adopted created.name
      else
        match unfinished? existing (s.toResource c.namespaceName) with
        | some pending => do
          let _ ← Writing.writeStatus c Legacy.kind pending
          return .adopted pending.name
        | none => return .alreadyManaged) := by
  rw [Stage.afterListing]
  by_cases he : existing.isEmpty = true
  · rw [if_pos he, if_pos he, ← map_eq_pure_bind, ExceptT.run_map, map_eq_pure_bind]
    exact runs_creating c s
  · rw [if_neg he, if_neg he]
    cases hpending : unfinished? existing (s.toResource c.namespaceName) with
    | none => exact .finished _
    | some pending =>
      dsimp only
      rw [← map_eq_pure_bind, ExceptT.run_map, map_eq_pure_bind]
      exact runs_resuming c (status_of_unfinished hpending)

theorem runs_listing (c : Context) (s : Settings) : Runs c (.listing s) (adopt c s).run := by
  simp only [adopt, listExisting, Action.orAbsent, ExceptT.run_bind, bind_assoc, ExceptT.run_mk]
  refine runs_request rfl (fun _ => rfl) fun a => ?_
  rw [Stage.next]
  cases Action.decode ObjectList.codec a with
  | ok l =>
    simp only [pure_bind, ExceptT.run_pure, Option.map_some, Option.getD_some]
    exact runs_afterListing c s l.items
  | error e =>
    dsimp only
    by_cases he : e.isNotFound = true
    · rw [if_pos he]
      simp only [he, if_true, pure_bind, ExceptT.run_pure, Option.map_none, Option.getD_none]
      exact runs_afterListing c s []
    · rw [if_neg he]
      simp only [he]
      exact .finished _

/-- **An attempt starts by reading the secret.** -/
theorem runs_attempt (c : Context) : Runs c .readingSecret (attempt c).run := by
  simp only [attempt, readSettings, Action.orAbsent, ExceptT.run_bind, bind_assoc, ExceptT.run_mk]
  refine runs_request rfl (fun _ => rfl) fun a => ?_
  rw [Stage.next]
  cases Action.decode Secret.codec a with
  | ok secret =>
    dsimp only
    unfold Stage.afterReading
    by_cases hs : (Settings.ofSecret secret).isLegacy = true
    · rw [if_pos hs]
      simp only [pure_bind, ExceptT.run_pure, Option.map_some, hs, if_true]
      exact runs_listing c _
    · rw [if_neg hs]
      simp only [pure_bind, ExceptT.run_pure, Option.map_some, hs]
      exact .finished _
  | error e =>
    dsimp only
    by_cases he : e.isNotFound = true
    · rw [if_pos he]
      simp only [he, if_true]
      exact .finished _
    · rw [if_neg he]
      simp only [he]
      exact .finished _

end MigrationOperator.Adoption
