/-
An adopter and a pipeline on the cluster held in memory.

Without injected faults the cluster answers as `Faultless` asks for, so either party may take a step on it. In
`exists_overtakenAdoption` the adopter creates the object of an installation, and the pipeline lists and loads it before
its status is written.
-/
import MigrationOperator.Proofs.Adoption.OnCluster
import MigrationOperator.Proofs.Coexistence.Regimes

namespace MigrationOperator

open Adoption (persisting unlessAdopted)

/-! ## The cluster does not fail by itself -/

namespace Cluster

variable {c : Cluster} {r : Request}

theorem absent_notFound : notFound.Absent := ⟨404, _, rfl, rfl, by decide +kernel⟩

theorem found_cases (j : Option Json) : ¬ (found j).Failed ∨ (found j).Absent := by
  cases j with
  | none => exact Or.inr absent_notFound
  | some j => exact Or.inl (carries_ofJson j rfl).not_failed

theorem faultless_serve (h : c.Sound) (hplain : r.HasPlainNames) (hproper : r.call.Proper) (hstored : Stored c.objects) :
    ∃ w, Faultless c.objects r.call (c.serve r).1 w (c.serve r).2.objects := by
  obtain ⟨w, hserves, -⟩ := serves_serve h hplain hproper hstored
  have hserve := serve_eq_respond h hplain
  refine ⟨w, hserves, fun name hcall => ?_, fun v name hcall hfailed => ?_, fun v body doc hcall hw hdoc => ?_⟩
  · rw [hserve, hcall]
    exact found_cases _
  · rw [hserve, hcall] at hfailed ⊢
    exact (found_cases _).resolve_left fun hok => hok hfailed
  · rw [hcall] at hserves hproper
    obtain ⟨name, revision, hbody⟩ := hproper
    rw [hserve, hcall] at hdoc
    rcases hserves.create_cases with ⟨_, _, hfree, -⟩ | ⟨rfl, -⟩
    · exact (retained_create hbody hfree hdoc).rereads
    · cases hw

end Cluster

namespace Coexistence

variable {cluster : Cluster} {c : Context} {r : Request} {secret : Json}

/-- an adopter at a stage has its request served by the cluster -/
theorem exists_adopter_step {stage : Adoption.Stage} {q : Program (Except OperatorError Adoption)}
    (hsound : cluster.Sound) (hsecret : cluster.secrets.get? c.secretName = some secret) (hstored : Stored cluster.objects)
    (hruns : Adoption.Runs c stage q) (hr : stage.request? c = some r) (hnames : r.HasNames) (hproper : r.call.Proper)
    (n : Nat) (p : Program (Pipeline.Report Pipeline.Outcome)) :
    ∃ a w q', ∃ cluster' : Cluster, Adoption.Hosts c.secretName secret cluster.objects r.call a w cluster'.objects ∧
      cluster'.Sound ∧ cluster'.secrets.get? c.secretName = some secret ∧ Adoption.Runs c (stage.next c a) q' ∧
      Step c.namespaceName ⟨cluster.objects, q >>= unlessAdopted (persisting c n), p⟩ ⟨.adopter, r, a⟩
        ⟨cluster'.objects, q' >>= unlessAdopted (persisting c n), p⟩ := by
  have hplain := Request.hasPlainNames_of_names hnames
  obtain ⟨next, rfl, hnext⟩ := hruns.exists_send hr (Request.fault?_of_names hnames)
  obtain ⟨w, hhosts, -⟩ := Cluster.hosts_serve hsound hsecret hplain hproper hstored
  obtain ⟨_, hserved⟩ := Cluster.faultless_serve hsound hplain hproper hstored
  refine ⟨_, w, _, (cluster.serve r).2, hhosts, Cluster.sound_serve hsound r, ?_, hnext _, .adopter (.served hserved)⟩
  rw [Cluster.secrets_serve]
  exact hsecret

/-- and so has a pipeline -/
theorem exists_pipeline_step {stage : Pipeline.Stage} {p : Program (Pipeline.Report Pipeline.Outcome)}
    (hsound : cluster.Sound) (hstored : Stored cluster.objects) (hruns : Pipeline.Runs c stage p)
    (hr : stage.request? c = some r) (hnames : r.HasNames) (hproper : r.call.Proper) (q : Program (Option Adoption)) :
    ∃ a p', ∃ cluster' : Cluster, Responds c.namespaceName cluster.objects r a cluster'.objects ∧ cluster'.Sound ∧
      Pipeline.Runs c (stage.next a) p' ∧
      Step c.namespaceName ⟨cluster.objects, q, p⟩ ⟨.pipeline, r, a⟩ ⟨cluster'.objects, q, p'⟩ := by
  obtain ⟨next, rfl, hnext⟩ := hruns.exists_send_of_fault? hr (Request.fault?_of_names hnames)
  obtain ⟨_, hserved⟩ := Cluster.faultless_serve hsound (Request.hasPlainNames_of_names hnames) hproper hstored
  exact ⟨_, _, (cluster.serve r).2, .served hserved, Cluster.sound_serve hsound r, hnext _, .pipeline (.served hserved)⟩

/-! ## An adoption under way -/

open Adoption (installationContext installationSecret isName_namespaceName isName_secretName isName_defaultName)

/-- an adopter that reads the secret of an installation and finds no object creates one -/
theorem exists_creation (p : Program (Pipeline.Report Pipeline.Outcome)) :
    ∃ ts doc q, ∃ cluster : Cluster, cluster.Sound ∧ cluster.objects = .singleton Canonical.defaultName doc ∧ Adoptee doc ∧
      (∃ t ∈ ts, t.party = .adopter ∧ t.request.isWrite = true) ∧
      Trace installationContext.namespaceName ⟨.empty, persisting installationContext 1, p⟩ ts
        ⟨cluster.objects, q, p⟩ := by
  obtain ⟨sec, hsecret, hlegacy⟩ := Adoption.exists_decode_installationSecret
  have hempty : Stored (.empty : StringMap Json) := fun _ _ hd => by cases hd
  have hsound : Cluster.Sound { secrets := .singleton installationContext.secretName installationSecret } := ⟨rfl, rfl⟩
  obtain ⟨a₁, w₁, q₁, cluster₁, hhosts₁, hsound₁, hsecret₁, hruns₁, hstep₁⟩ := exists_adopter_step hsound
    (StringMap.get?_singleton_self _ _) hempty (Adoption.runs_attempt installationContext) rfl
    ⟨isName_namespaceName, fun n hn => Option.some.inj hn ▸ isName_secretName⟩ trivial 0 p
  have hobjs₁ : cluster₁.objects = .empty := hhosts₁.serves.secret_cases.2
  rw [Adoption.next_readingSecret hsecret hlegacy (hhosts₁.secret rfl)] at hruns₁
  obtain ⟨a₂, w₂, q₂, cluster₂, hhosts₂, hsound₂, hsecret₂, hruns₂, hstep₂⟩ := exists_adopter_step hsound₁ hsecret₁
    (hobjs₁ ▸ hempty) hruns₁ rfl ⟨isName_namespaceName, fun _ h => by cases h⟩ trivial 0 p
  have hserves₂ := hhosts₂.serves
  rw [hobjs₁] at hserves₂
  have hobjs₂ : cluster₂.objects = .empty := hserves₂.list_cases.2.1
  rw [Adoption.next_listing hserves₂] at hruns₂
  obtain ⟨a₃, w₃, q₃, cluster₃, hhosts₃, hsound₃, -, -, hstep₃⟩ := exists_adopter_step hsound₂ hsecret₂
    (hobjs₂ ▸ hempty) hruns₂ rfl ⟨isName_namespaceName, fun _ h => by cases h⟩ ⟨_, _, Adoption.stands_body _ _⟩ 0 p
  rw [hobjs₂] at hhosts₃
  obtain ⟨revision, doc, -, hobjs₃, hcreated, -⟩ := Adoption.exists_created (c := installationContext) hhosts₃
  exact ⟨_, doc, _, cluster₃, hsound₃, hobjs₃,
    ⟨⟨revision, hcreated.stands⟩, hcreated.rereads, ⟨_, hcreated.spec⟩, Or.inl hcreated.status⟩,
    ⟨_, List.mem_append_right _ (List.mem_singleton_self _), rfl, rfl⟩,
    .step (.step (.step .start hstep₁) hstep₂) hstep₃⟩

theorem hasNames_app (v : SchemaVersion) {name : String} (h : name = Canonical.defaultName) :
    Request.HasNames ⟨installationContext.namespaceName, .read v name⟩ :=
  ⟨isName_namespaceName, fun _ hn => Option.some.inj hn ▸ h ▸ isName_defaultName⟩

/-- a pipeline that lists the object and loads it before its status was written leaves it alone -/
theorem exists_overtakenAdoption : ∃ ts S doc, Trace installationContext.namespaceName
      (beginning installationContext 1 .empty) ts S ∧ S.objects = .singleton Canonical.defaultName doc ∧
      (∃ t ∈ ts, t.party = .adopter ∧ t.request.isWrite = true) ∧
      S.pipeline = .done ⟨some ⟨1, 0⟩, .ok .notEligible⟩ := by
  obtain ⟨ts, doc, q, cluster, hsound, hobjs, hdoc, ⟨t, htmem, hcreation⟩, ht⟩ :=
    exists_creation (Pipeline.run installationContext)
  have hstored : Stored (.singleton Canonical.defaultName doc) := .singleton hdoc.stands
  obtain ⟨a₄, p₁, cluster₁, hlist, hsound₁, hruns₁, hstep₁⟩ := exists_pipeline_step hsound (hobjs ▸ hstored)
    (Pipeline.runs_run installationContext) rfl ⟨isName_namespaceName, fun _ h => by cases h⟩ trivial q
  have hobjs₁ := (hlist.of_read rfl).1.trans hobjs
  rw [hobjs] at hlist
  obtain ⟨x, hname, hx⟩ := Pipeline.exists_next_listing_adoptee hdoc hlist
  rw [hx] at hruns₁
  obtain ⟨a₅, p₂, cluster₂, hread, -, hruns₂, hstep₂⟩ := exists_pipeline_step hsound₁ (hobjs₁ ▸ hstored) hruns₁ rfl
    (hasNames_app .legacy hname) trivial q
  have hobjs₂ := (hread.of_read rfl).1.trans hobjs₁
  rw [hobjs₁] at hread
  rw [Pipeline.next_loadingLegacy_adoptee hdoc hname hread] at hruns₂
  exact ⟨_, _, doc, .step (.step ht hstep₁) hstep₂, hobjs₂,
    ⟨t, List.mem_append_left _ (List.mem_append_left _ htmem), hcreation⟩, hruns₂.eq_done⟩

end Coexistence

end MigrationOperator
