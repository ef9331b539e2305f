/-
The startup pipeline as a machine of stages.

At each `Stage` the pipeline has one request to send, and the answer decides the stage after it. A run that found one
legacy object goes from `listing` to `loadingLegacy`, and, when what it loads is eligible, over `patching` to `replacing`;
an object that was loaded without a revision is created and described instead. `Runs` ties programs to stages, and
`runs_run` says that `Pipeline.run` is at `listing`.
-/
import MigrationOperator.Pipeline

namespace MigrationOperator.Pipeline

/-- the canonical resource that a loaded legacy one becomes when there is no canonical one -/
def successor (c : Context) (l : LegacyResource) : CanonicalResource :=
  Migration.apply l (Migration.standIn l c.namespaceName)

theorem isEligible_standIn_iff {l : LegacyResource} {namespaceName : String} :
    Migration.isEligible l (Migration.standIn l namespaceName) = true ↔ l.phase = .installed := by
  rw [Migration.isEligible, Bool.and_eq_true, decide_eq_true_eq]
  exact and_iff_left rfl

/-- what is installed is migrated -/
theorem migrate?_standIn {l : LegacyResource} (h : l.phase = .installed) (namespaceName : String) :
    Migration.migrate? l (Migration.standIn l namespaceName) =
      some (Migration.apply l (Migration.standIn l namespaceName)) :=
  if_pos (isEligible_standIn_iff.2 h)

/-- what a run is about to ask for -/
inductive Stage where
  | listing
  /-- one object was listed, and it is legacy -/
  | loadingLegacy (x : LegacyResource)
  /-- one object was listed, and it is canonical -/
  | loadingCanonical (x : CanonicalResource)
  /-- an eligible object was loaded at a revision -/
  | patching (l : LegacyResource)
  /-- the status was written, and its answer carried this revision -/
  | replacing (l : LegacyResource) (revision : Option String)
  /-- an eligible object was loaded without a revision -/
  | creating (l : LegacyResource)
  /-- the successor was created -/
  | describing (l : LegacyResource) (created : CanonicalResource)
  | finished (r : Report Outcome)

namespace Stage

/-- what was counted, once something was -/
def census : Stage → Option Census
  | .listing => none
  | .loadingCanonical _ => some ⟨0, 1⟩
  | .finished r => r.census
  | _ => some ⟨1, 0⟩

/-- the call of a stage, unless the run is finished -/
def call? (c : Context) : Stage → Option Call
  | .listing => some .list
  | .loadingLegacy x => some (.read .legacy x.name)
  | .loadingCanonical x => some (.read .canonical x.name)
  | .patching l =>
    some (.patchStatus .canonical (successor c l).name
      (Writing.statusPatch l.metadata.resourceVersion (Migration.status l.status none)))
  | .replacing l revision =>
    some (.replace .canonical (successor c l).name (Canonical.kind.write ((successor c l).atRevision revision)))
  | .creating l => some (.create .canonical (Canonical.kind.write (successor c l)))
  | .describing l created =>
    some (.patchStatus .canonical (successor c l).name
      (Writing.statusPatch created.metadata.resourceVersion (Migration.status l.status none)))
  | .finished _ => none

def request? (c : Context) (s : Stage) : Option Request := (s.call? c).map (⟨c.namespaceName, ·⟩)

/-- a run that ends with an error -/
def failed (s : Stage) (e : OperatorError) : Stage := .finished ⟨s.census, .error e⟩

/-- after a request for something that may be absent failed -/
def missed (s : Stage) (census : Census) (e : OperatorError) : Stage :=
  if e.isNotFound then .finished ⟨some census, .ok .noResource⟩ else s.failed e

/-- what is not there ends the run without an error -/
theorem missed_of_isNotFound {e : OperatorError} (h : e.isNotFound = true) (s : Stage) (census : Census) :
    s.missed census e = .finished ⟨some census, .ok .noResource⟩ :=
  if_pos h

/-- after what was listed -/
def afterListing : Except Unrecognized (List Classified) → Stage
  | .error e => .finished ⟨none, .error (.unrecognized e)⟩
  | .ok [] => .finished ⟨some ⟨0, 0⟩, .ok .noResource⟩
  | .ok [.legacy x] => .loadingLegacy x
  | .ok [.canonical x] => .loadingCanonical x
  | .ok xs =>
    let cs := Candidates.ofList xs
    .finished ⟨some (.of cs), .error (.tooMany ⟨cs.legacy.length, cs.canonical.length⟩)⟩

/-- after a legacy object was loaded -/
def afterLoading (l : LegacyResource) : Stage :=
  if l.phase = .installed then
    if l.metadata.resourceVersion.isNone then .creating l else .patching l
  else .finished ⟨some ⟨1, 0⟩, .ok .notEligible⟩

theorem afterLoading_eq_patching {l : LegacyResource} {revision : String} (hphase : l.phase = .installed)
    (hrevision : l.metadata.resourceVersion = some revision) : afterLoading l = .patching l := by
  rw [afterLoading, if_pos hphase, hrevision]
  rfl

/-- the stage after an answer -/
def next (s : Stage) (a : Answer) : Stage :=
  match s with
  | .listing =>
    match Action.decode ObjectList.codec a with
    | .ok l => afterListing (Candidates.classifyAll l.items)
    | .error e => s.missed ⟨0, 0⟩ e
  | .loadingLegacy _ =>
    match Action.decode Legacy.kind.codec a with
    | .ok l => afterLoading l
    | .error e => s.missed ⟨1, 0⟩ e
  | .loadingCanonical _ =>
    match Action.decode Canonical.kind.codec a with
    | .ok _ => .finished ⟨s.census, .ok .upToDate⟩
    | .error e => s.missed ⟨0, 1⟩ e
  | .patching l =>
    match Action.decode Opaque.codec a with
    | .ok patched => .replacing l patched.metadata.resourceVersion
    | .error e => s.failed e
  | .replacing _ _ =>
    match Action.decode Canonical.kind.codec a with
    | .ok x => .finished ⟨s.census, .ok (.migrated x)⟩
    | .error e => s.failed e
  | .creating l =>
    match Action.decode Canonical.kind.codec a with
    | .ok created => .describing l created
    | .error e => s.failed e
  | .describing _ _ =>
    match Action.decode Opaque.codec a with
    | .ok patched =>
      match Canonical.kind.codec.decode patched.write with
      | .ok x => .finished ⟨s.census, .ok (.migrated x)⟩
      | .error e => s.failed (.serialization e)
    | .error e => s.failed e
  | .finished r => .finished r

end Stage

/-! ## Programs at a stage -/

/-- a program at a stage sends the request of the stage, unless it cannot be sent, and goes on where the answer leads -/
inductive Runs (c : Context) : Stage → Program (Report Outcome) → Prop where
  | finished (r : Report Outcome) : Runs c (.finished r) (.done r)
  | blocked {s : Stage} {r : Request} {fault : RequestFault} (hr : s.request? c = some r) (hf : r.fault? = some fault) :
    Runs c s (.done ⟨s.census, .error (.unsendable fault)⟩)
  | sends {s : Stage} {r : Request} {next : Answer → Program (Report Outcome)} (hr : s.request? c = some r)
    (hf : r.fault? = none) (hnext : ∀ a, Runs c (s.next a) (next a)) : Runs c s (.send r next)

/-- a program that starts with the request of a stage is at the stage -/
theorem runs_request {c : Context} {s : Stage} {r : Request} {α : Type} {codec : Codec α}
    {f : Except OperatorError α → Program (Report Outcome)} (hr : s.request? c = some r)
    (hblocked : ∀ fault, f (.error (.unsendable fault)) = .done ⟨s.census, .error (.unsendable fault)⟩)
    (hnext : ∀ a, Runs c (s.next a) (f (Action.decode codec a))) :
    Runs c s ((Action.request codec r).run >>= f) := by
  unfold Action.request Action.send
  cases hf : r.fault? with
  | some fault =>
    show Runs c s (f (.error (.unsendable fault)))
    rw [hblocked]
    exact .blocked hr hf
  | none => exact .sends hr hf hnext

/-- a failure to find what may be absent ends the run, with an error unless it says that nothing is there -/
theorem runs_missed {c : Context} {s : Stage} {census : Census} {e : OperatorError} {α : Type}
    {f : Except OperatorError (Option α) → Program (Report Outcome)}
    (hnone : f (.ok none) = .done ⟨some census, .ok .noResource⟩) (herror : f (.error e) = .done ⟨s.census, .error e⟩) :
    Runs c (s.missed census e) (pure (if e.isNotFound then .ok none else .error e) >>= f) := by
  rw [pure_bind, Stage.missed]
  split
  · rw [hnone]
    exact .finished _
  · rw [herror]
    exact .finished _

/-! ## The pipeline, stage by stage -/

/-- the report of a run that wrote, or failed to -/
def written (w : Except OperatorError CanonicalResource) : Program (Report Outcome) :=
  .done ⟨some ⟨1, 0⟩, w.map .migrated⟩

/-- the end of a run once the objects were loaded -/
def finish (c : Context) (census : Census) : Except OperatorError Migrator → Program (Report Outcome)
  | .error e => .done ⟨some census, .error e⟩
  | .ok m => do
    let w ← (m.migrate.write c).run
    return ⟨some census, w.map m.migrate.outcome⟩

theorem runs_replacing (c : Context) (l : LegacyResource) (revision : Option String) :
    Runs c (.replacing l revision)
      ((Action.request Canonical.kind.codec ⟨c.namespaceName, .replace .canonical (successor c l).name
        (Canonical.kind.write ((successor c l).atRevision revision))⟩).run >>= written) := by
  refine runs_request rfl (fun _ => rfl) fun a => ?_
  rw [Stage.next]
  cases Action.decode Canonical.kind.codec a with
  | ok x => exact .finished _
  | error e => exact .finished _

theorem runs_patching (c : Context) (l : LegacyResource) :
    Runs c (.patching l) ((Writing.replace c Canonical.kind (successor c l)).run >>= written) := by
  have hstatus : (successor c l).status = some (Migration.status l.status none) := rfl
  simp only [Writing.replace, Writing.writeStatus, hstatus, ExceptT.run_bind, pure_bind, bind_assoc]
  refine runs_request rfl (fun _ => rfl) fun a => ?_
  rw [Stage.next]
  cases Action.decode Opaque.codec a with
  | ok patched => exact runs_replacing c l patched.metadata.resourceVersion
  | error e => exact .finished _

theorem runs_creating (c : Context) (l : LegacyResource) :
    Runs c (.creating l) ((Writing.create c Canonical.kind (successor c l)).run >>= written) := by
  have hstatus : ∀ r, ((successor c l).atRevision r).status = some (Migration.status l.status none) := fun _ => rfl
  simp only [Writing.create, Writing.writeStatus, hstatus, ExceptT.run_bind, pure_bind, bind_assoc]
  refine runs_request rfl (fun _ => rfl) fun a => ?_
  rw [Stage.next]
  cases Action.decode Canonical.kind.codec a with
  | error e => exact .finished _
  | ok created =>
    simp only [bind_assoc]
    refine runs_request rfl (fun _ => rfl) fun a => ?_
    rw [Stage.next]
    cases Action.decode Opaque.codec a with
    | error e => exact .finished _
    | ok patched =>
      dsimp only [Writing.readBack]
      cases Canonical.kind.codec.decode patched.write with
      | ok x => exact .finished _
      | error e => exact .finished _

/-- a loaded legacy object is written back when it is eligible, and left alone otherwise -/
theorem runs_afterLoading (c : Context) (l : LegacyResource) :
    Runs c (.afterLoading l)
      (finish c ⟨1, 0⟩ (.ok { legacy := some l, current := some (Migration.standIn l c.namespaceName) })) := by
  rw [Stage.afterLoading]
  by_cases hp : l.phase = .installed
  · have hmigrate : Migrator.migrate { legacy := some l, current := some (Migration.standIn l c.namespaceName) } =
        ⟨some l, some (successor c l), true⟩ := by
      simp [Migrator.migrate, migrate?_standIn hp, successor]
    have hfinish : finish c ⟨1, 0⟩ (.ok { legacy := some l, current := some (Migration.standIn l c.namespaceName) }) =
        (Writing.upsert c Canonical.kind (successor c l)).run >>= written := by
      rw [finish, hmigrate]
      simp only [Migrator.write, if_true]
      rw [ExceptT.run_map, map_eq_pure_bind, bind_assoc]
      congr 1
      funext w
      cases w <;> rfl
    have hrevision : (successor c l).metadata.resourceVersion = l.metadata.resourceVersion := rfl
    rw [hfinish, if_pos hp, Writing.upsert, hrevision]
    by_cases hr : l.metadata.resourceVersion.isNone = true
    · rw [if_pos hr, if_pos hr]
      exact runs_creating c l
    · rw [if_neg hr, if_neg hr]
      exact runs_patching c l
  · have hmigrate : Migrator.migrate { legacy := some l, current := some (Migration.standIn l c.namespaceName) } =
        { legacy := some l, current := some (Migration.standIn l c.namespaceName) } := by
      simp [Migrator.migrate, Migration.migrate?, Migration.isEligible, hp]
    have hfinish : finish c ⟨1, 0⟩ (.ok { legacy := some l, current := some (Migration.standIn l c.namespaceName) }) =
        .done ⟨some ⟨1, 0⟩, .ok .notEligible⟩ := by
      rw [finish, hmigrate]
      rfl
    rw [hfinish, if_neg hp]
    exact .finished _

theorem runs_loadingLegacy (c : Context) (x : LegacyResource) :
    Runs c (.loadingLegacy x) ((load c ⟨[], [x]⟩).run >>= finish c ⟨1, 0⟩) := by
  simp only [load, List.head?_cons, List.head?_nil, Action.orAbsent, ExceptT.run_bind, ExceptT.run_pure, pure_bind,
    bind_assoc, ExceptT.run_mk]
  refine runs_request rfl (fun _ => rfl) fun a => ?_
  rw [Stage.next]
  cases Action.decode Legacy.kind.codec a with
  | ok l => exact runs_afterLoading c l
  | error e => exact runs_missed (by rfl) (by rfl)

theorem runs_loadingCanonical (c : Context) (x : CanonicalResource) :
    Runs c (.loadingCanonical x) ((load c ⟨[x], []⟩).run >>= finish c ⟨0, 1⟩) := by
  simp only [load, List.head?_cons, List.head?_nil, Action.orAbsent, ExceptT.run_bind, ExceptT.run_pure, pure_bind,
    bind_assoc, ExceptT.run_mk]
  refine runs_request rfl (fun _ => rfl) fun a => ?_
  rw [Stage.next]
  cases Action.decode Canonical.kind.codec a with
  | ok y => exact .finished _
  | error e => exact runs_missed (by rfl) (by rfl)

/-- the pipeline behind its listing: count, apply the singleton rule, load and finish -/
def proceed (c : Context) : Except OperatorError Candidates → Program (Report Outcome)
  | .error e => .done ⟨none, .error e⟩
  | .ok cs =>
    match cs.checkSingleton with
    | .error e => .done ⟨some (.of cs), .error (.tooMany e)⟩
    | .ok () => (load c cs).run >>= finish c (.of cs)

theorem run_eq_proceed (c : Context) : run c = (fetch c).run >>= proceed c := by
  unfold run discover
  simp only [bind_assoc]
  congr 1
  funext r
  cases r with
  | error e => rfl
  | ok cs =>
    dsimp only [proceed]
    cases cs.checkSingleton with
    | error e => rfl
    | ok u =>
      simp only [bind_assoc, pure_bind]
      rfl

theorem size_ofList (xs : List Classified) : (Candidates.ofList xs).size = xs.length := by
  have key : ∀ (ys : List Classified) (cs : Candidates), (ys.foldl Candidates.push cs).size = cs.size + ys.length := by
    intro ys
    induction ys with
    | nil => intro cs; rfl
    | cons y ys ih =>
      intro cs
      rw [List.foldl_cons, ih, Candidates.size_push, List.length_cons]
      omega
  exact (key xs .empty).trans (Nat.zero_add xs.length)

/-- objects are too many as soon as there is a second one -/
theorem checkSingleton_of_many (x y : Classified) (xs : List Classified) :
    (Candidates.ofList (x :: y :: xs)).checkSingleton =
      .error ⟨(Candidates.ofList (x :: y :: xs)).legacy.length, (Candidates.ofList (x :: y :: xs)).canonical.length⟩ := by
  have hsize : 1 < (Candidates.ofList (x :: y :: xs)).size := by
    rw [size_ofList, List.length_cons, List.length_cons]
    omega
  exact if_pos hsize

theorem Stage.afterListing_of_many (x y : Classified) (xs : List Classified) :
    let cs := Candidates.ofList (x :: y :: xs)
    afterListing (.ok (x :: y :: xs)) =
      .finished ⟨some (.of cs), .error (.tooMany ⟨cs.legacy.length, cs.canonical.length⟩)⟩ := by
  cases x <;> rfl

/-- what was listed decides how the pipeline goes on -/
theorem runs_afterListing (c : Context) (r : Except Unrecognized (List Classified)) :
    Runs c (.afterListing r) (proceed c ((r.map Candidates.ofList).mapError .unrecognized)) := by
  match r with
  | .error e => exact .finished _
  | .ok [] => exact .finished _
  | .ok [.legacy x] => exact runs_loadingLegacy c x
  | .ok [.canonical x] => exact runs_loadingCanonical c x
  | .ok (x :: y :: xs) =>
    let cs := Candidates.ofList (x :: y :: xs)
    have hproceed : proceed c (.ok cs) =
        .done ⟨some (.of cs), .error (.tooMany ⟨cs.legacy.length, cs.canonical.length⟩)⟩ := by
      rw [proceed, checkSingleton_of_many]
    rw [Stage.afterListing_of_many]
    exact hproceed ▸ Runs.finished _

theorem runs_run (c : Context) : Runs c .listing (run c) := by
  rw [run_eq_proceed, fetch]
  simp only [Action.orAbsent, ExceptT.run_bind, bind_assoc, ExceptT.run_mk]
  refine runs_request rfl (fun _ => rfl) fun a => ?_
  rw [Stage.next]
  cases Action.decode ObjectList.codec a with
  | ok l =>
    have h := runs_afterListing c (Candidates.classifyAll l.items)
    cases hc : Candidates.classifyAll l.items with
    | ok xs =>
      rw [hc] at h
      simp only [pure_bind, Option.map_some, Option.getD_some, hc]
      exact h
    | error e =>
      rw [hc] at h
      simp only [pure_bind, Option.map_some, Option.getD_some, hc]
      exact h
  | error e => exact runs_missed (by rfl) (by rfl)

end MigrationOperator.Pipeline
