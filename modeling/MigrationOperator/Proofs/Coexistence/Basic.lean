/-
Two parties on one store.

The adopter and the startup pipeline work on the objects of one namespace without a lock. A `Coexistence` is the objects and
what either party has left to do; a `Step` is one request of one party, so a `Trace` is any interleaving of their requests.
Nothing fails by itself (`Faultless`), so a write that is refused was too late.

A `Regime` says what is stored, where either party may stand meanwhile, and which of them may write. It is `Stable` when
every single request keeps it, and then it lasts along every trace (`Regime.Stable.trace`).
-/
import MigrationOperator.Proofs.Adoption.Persisting
import MigrationOperator.Proofs.Pipeline.Tracking

namespace MigrationOperator

/-! ## Answers without faults -/

/-- a call is served next to a secret that may be absent or change; what is not there is reported as absent, and the metadata
of a new object reads again if what was sent does -/
structure Faultless (objs : StringMap Json) (call : Call) (a : Answer) (w : Option Write) (objs' : StringMap Json) :
    Prop where
  serves : Serves objs call a w objs'
  secret : ∀ name, call = .readSecret name → ¬ a.Failed ∨ a.Absent
  missing : ∀ v name, call = .read v name → a.Failed → a.Absent
  created : ∀ v body doc, call = .create v body → w.isSome → objs'.get? (Cluster.nameOf body) = some doc →
    body.Rereads → doc.Rereads

/-- a request is served, or asks for an object of another namespace, where there is none -/
inductive Responds (namespaceName : String) (objs : StringMap Json) (r : Request) (a : Answer) :
    StringMap Json → Prop where
  | served {w : Option Write} {objs' : StringMap Json} (h : Faultless objs r.call a w objs') :
    Responds namespaceName objs r a objs'
  | elsewhere (hns : r.namespaceName ≠ namespaceName) (ha : a.Absent) : Responds namespaceName objs r a objs

namespace Responds

variable {ns name : String} {objs objs' : StringMap Json} {r : Request} {call : Call} {a : Answer} {v : SchemaVersion}

theorem faultless (h : Responds ns objs ⟨ns, call⟩ a objs') : ∃ w, Faultless objs call a w objs' := by
  cases h with
  | served h => exact ⟨_, h⟩
  | elsewhere hns _ => exact absurd rfl hns

/-- a read changes nothing and meets no conflict -/
theorem of_read (h : Responds ns objs r a objs') (hr : r.isWrite = false) : objs' = objs ∧ ¬ a.Conflicts := by
  cases h with
  | elsewhere _ ha => exact ⟨rfl, ha.not_conflicts⟩
  | @served w _ h =>
    obtain ⟨n, call⟩ := r
    dsimp only at h
    cases call with
    | readSecret name =>
      refine ⟨h.serves.secret_cases.2, fun hconflict => ?_⟩
      exact (h.secret name rfl).elim (fun hok => hok hconflict.failed) fun ha => ha.not_conflicts hconflict
    | list =>
      obtain ⟨-, hsame, revision, ha⟩ := h.serves.list_cases
      exact ⟨hsame, fun hconflict => ha.not_failed hconflict.failed⟩
    | read v name =>
      exact ⟨h.serves.read_cases.2.1, fun hconflict => (h.missing v name rfl hconflict.failed).not_conflicts hconflict⟩
    | create _ _ => cases hr
    | replace _ _ _ => cases hr
    | patchStatus _ _ _ => cases hr

/-- every object is listed as it is stored -/
theorem exists_listing (h : Responds ns objs ⟨ns, .list⟩ a objs') (hstored : Stored objs) :
    ∃ l, Action.decode ObjectList.codec a = .ok l ∧
      List.Forall₂ (fun doc d => Opaque.codec.decode (Cluster.label .canonical doc) = .ok d) objs.values l.items := by
  obtain ⟨w, hserved⟩ := h.faultless
  obtain ⟨-, -, revision, ha⟩ := hserved.serves.list_cases
  obtain ⟨ds, hds⟩ := hstored.exists_listed
  exact ⟨_, (ha.decode_ok_iff ObjectList.codec).2
    (Json.decode_listing_of_forall₂ (List.forall₂_map_left_iff.2 hds) revision), hds⟩

/-- an object is read as it is stored, and what is not stored is absent -/
theorem read_cases (h : Responds ns objs ⟨ns, .read v name⟩ a objs') :
    (∃ doc, objs.get? name = some doc ∧ a.Carries (Cluster.label v doc)) ∨ objs.get? name = none ∧ a.Absent := by
  obtain ⟨w, hserved⟩ := h.faultless
  rcases hserved.serves.read_cases.2.2 with hfound | ⟨hnone, hfailed⟩
  · exact Or.inl hfound
  · exact Or.inr ⟨hnone, hserved.missing v name rfl hfailed⟩

/-- what is read of an object is what it decodes as -/
theorem exists_of_decode_read {σ : Type} {k : Kind σ} {x : Resource σ}
    (h : Responds ns objs ⟨ns, .read v name⟩ a objs') (hstored : Stored objs)
    (hx : Action.decode k.codec a = .ok x) :
    ∃ doc revision, objs.get? name = some doc ∧ doc.Stands name (some revision) ∧ k.codec.decode doc = .ok x := by
  obtain ⟨w, hserved⟩ := h.faultless
  exact hserved.serves.exists_of_decode_read hstored hx

end Responds

/-! ## Steps and traces -/

inductive Party where
  | adopter
  | pipeline
deriving DecidableEq

/-- the objects of a namespace, and what the adopter and the pipeline have left to do -/
structure Coexistence where
  objects : StringMap Json
  adopter : Program (Option Adoption)
  pipeline : Program (Pipeline.Report Pipeline.Outcome)

namespace Coexistence

/-- a request of one party and its answer -/
structure Turn where
  party : Party
  request : Request
  answer : Answer

/-- one request of one party -/
inductive Step (namespaceName : String) : Coexistence → Turn → Coexistence → Prop where
  | adopter {objects objects' : StringMap Json} {r : Request} {next : Answer → Program (Option Adoption)}
    {pipeline : Program (Pipeline.Report Pipeline.Outcome)} {a : Answer}
    (h : Responds namespaceName objects r a objects') :
    Step namespaceName ⟨objects, .send r next, pipeline⟩ ⟨.adopter, r, a⟩ ⟨objects', next a, pipeline⟩
  | pipeline {objects objects' : StringMap Json} {r : Request} {adopter : Program (Option Adoption)}
    {next : Answer → Program (Pipeline.Report Pipeline.Outcome)} {a : Answer}
    (h : Responds namespaceName objects r a objects') :
    Step namespaceName ⟨objects, adopter, .send r next⟩ ⟨.pipeline, r, a⟩ ⟨objects', adopter, next a⟩

/-- requests one after another -/
inductive Trace (namespaceName : String) (S : Coexistence) : List Turn → Coexistence → Prop where
  | start : Trace namespaceName S [] S
  | step {ts : List Turn} {t : Turn} {S' S'' : Coexistence} (h : Trace namespaceName S ts S')
    (hs : Step namespaceName S' t S'') : Trace namespaceName S (ts ++ [t]) S''

/-- neither has begun; the adopter makes so many attempts at most -/
def beginning (c : Context) (attempts : Nat) (objects : StringMap Json) : Coexistence where
  objects := objects
  adopter := Adoption.persisting c attempts
  pipeline := Pipeline.run c

end Coexistence

/-! ## Regimes -/

open Coexistence

/-- what is stored, where the parties may stand meanwhile, and which of them may write -/
structure Regime where
  writer : Party
  store : StringMap Json → Prop
  adopter : StringMap Json → Adoption.Stage → Prop
  pipeline : StringMap Json → Pipeline.Stage → Prop

namespace Regime

variable {R : Regime} {c : Context} {S S' : Coexistence} {t : Turn} {ts : List Turn} {party : Party} {r : Request}
  {a : Answer} {objs objs' : StringMap Json}

/-- a request is one that the party may send and is not too late, and what it leaves is stored -/
structure Permits (R : Regime) (party : Party) (r : Request) (a : Answer) (objs' : StringMap Json) : Prop where
  store : R.store objs'
  writer : r.isWrite = true → R.writer = party
  answer : ¬ a.Conflicts

/-- a read is permitted to either party -/
theorem permits_read (hstore : R.store objs) (h : Responds c.namespaceName objs r a objs') (hr : r.isWrite = false) :
    R.Permits party r a objs' := by
  obtain ⟨rfl, ha⟩ := h.of_read hr
  exact ⟨hstore, fun hw => absurd (hr.symm.trans hw) Bool.false_ne_true, ha⟩

/-- every request of either party is permitted, leads on within the regime, and leaves the other party where it may stand -/
structure Stable (R : Regime) (c : Context) : Prop where
  adopter_start : ∀ {objs}, R.store objs → R.adopter objs .readingSecret
  pipeline_start : ∀ {objs}, R.store objs → R.pipeline objs .listing
  adopter_step : ∀ {objs objs' stage r a}, R.store objs → R.adopter objs stage → stage.request? c = some r →
    Responds c.namespaceName objs r a objs' →
    R.Permits .adopter r a objs' ∧ R.adopter objs' (stage.next c a) ∧ ∀ s, R.pipeline objs s → R.pipeline objs' s
  pipeline_step : ∀ {objs objs' stage r a}, R.store objs → R.pipeline objs stage → stage.request? c = some r →
    Responds c.namespaceName objs r a objs' →
    R.Permits .pipeline r a objs' ∧ R.pipeline objs' (stage.next a) ∧ ∀ s, R.adopter objs s → R.adopter objs' s

/-- the objects are stored, and the parties stand, as the regime has it -/
structure Governs (R : Regime) (c : Context) (S : Coexistence) : Prop where
  store : R.store S.objects
  adopter : ∃ stage, Adoption.Persists c stage S.adopter ∧ R.adopter S.objects stage
  pipeline : ∃ stage, Pipeline.Runs c stage S.pipeline ∧ R.pipeline S.objects stage

theorem Stable.governs_beginning (h : R.Stable c) (hstore : R.store objs) (attempts : Nat) :
    R.Governs c (beginning c attempts objs) :=
  ⟨hstore, ⟨_, Adoption.persists_persisting c attempts, h.adopter_start hstore⟩,
    ⟨_, Pipeline.runs_run c, h.pipeline_start hstore⟩⟩

/-- one request keeps the regime -/
theorem Stable.step (h : R.Stable c) (hS : R.Governs c S) (hs : Coexistence.Step c.namespaceName S t S') :
    R.Governs c S' ∧ R.Permits t.party t.request t.answer S'.objects := by
  obtain ⟨hstore, ⟨stage, hpersists, hadopter⟩, ⟨stage', hruns, hpipeline⟩⟩ := hS
  cases hs with
  | @adopter objects objects' r next pipeline a hresponds =>
    -- the request is the one of the stage, or the first one of another attempt
    obtain ⟨stage₁, ⟨hr, hnext⟩, hat⟩ : ∃ s, Adoption.Sends c s r next ∧ R.adopter objects s :=
      hpersists.of_send.elim (fun hsends => ⟨_, hsends, hadopter⟩) fun hsends => ⟨_, hsends, h.adopter_start hstore⟩
    obtain ⟨hpermits, hadopter', hothers⟩ := h.adopter_step hstore hat hr hresponds
    exact ⟨⟨hpermits.store, ⟨_, hnext a, hadopter'⟩, ⟨_, hruns, hothers _ hpipeline⟩⟩, hpermits⟩
  | @pipeline objects objects' r adopter next a hresponds =>
    obtain ⟨hr, hnext⟩ := hruns.of_send
    obtain ⟨hpermits, hpipeline', hothers⟩ := h.pipeline_step hstore hpipeline hr hresponds
    exact ⟨⟨hpermits.store, ⟨_, hpersists, hothers _ hadopter⟩, ⟨_, hnext a, hpipeline'⟩⟩, hpermits⟩

/-- **A stable regime lasts**: along every interleaving only its writer writes, and no request meets a conflict. -/
theorem Stable.trace (h : R.Stable c) (hS : R.Governs c S) (ht : Coexistence.Trace c.namespaceName S ts S') :
    R.Governs c S' ∧ ∀ t ∈ ts, (t.request.isWrite = true → t.party = R.writer) ∧ ¬ t.answer.Conflicts := by
  induction ht with
  | start => exact ⟨hS, fun _ ht => absurd ht List.not_mem_nil⟩
  | step _ hs ih =>
    obtain ⟨hgoverns, hturns⟩ := ih
    obtain ⟨hgoverns', hpermits⟩ := h.step hgoverns hs
    refine ⟨hgoverns', fun t ht => ?_⟩
    rcases List.mem_append.1 ht with ht | ht
    · exact hturns t ht
    · obtain rfl := List.mem_singleton.1 ht
      exact ⟨fun hw => (hpermits.writer hw).symm, hpermits.answer⟩

end Regime

end MigrationOperator
