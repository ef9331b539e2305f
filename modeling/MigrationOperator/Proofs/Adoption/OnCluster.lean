/-
Attempts at adoption on the cluster held in memory.

With a secret that marks an installation, the cluster hosts it (`Cluster.hosts_serve`), and so what is proved of such
servers holds of the cluster (`asInstallation`). `exists_interruptedRun` follows two attempts on it: the first one
creates the object and stops as the answer is lost, and the second one finds it and describes it.
-/
import MigrationOperator.Proofs.Adoption.Completion
import MigrationOperator.Proofs.Store.Cluster

namespace MigrationOperator

open Adoption

/-! ## The cluster as an installation -/

namespace Cluster

variable {c : Cluster} {r : Request} {secretName : String} {secret : Json}

/-- nothing that is served changes a secret -/
theorem secrets_serve (c : Cluster) (r : Request) : (c.serve r).2.secrets = c.secrets := by
  have hupdate : ∀ v name body change, (c.update v name body change).2.secrets = c.secrets := by
    intro v name body change
    unfold update
    split
    · rfl
    · split
      · rfl
      · rfl
  unfold serve
  split
  · rfl
  · split
    · rename_i call _
      unfold handle
      split
      · rfl
      · cases call with
        | create v body =>
          rw [respond, create]
          split
          · rfl
          · rfl
        | replace v name body => exact hupdate v name body _
        | patchStatus v name patch => exact hupdate v name patch _
        | _ => rfl
    · rfl

/-- a new object keeps its namespace, and metadata that reads again -/
theorem retained_create {v : SchemaVersion} {name : String} {revision : Option String} {body doc : Json}
    (hbody : body.Stands name revision) (hfree : c.objects.get? (nameOf body) = none)
    (hdoc : (c.create v body).2.objects.get? (nameOf body) = some doc) : Retained body doc := by
  have hget : ∀ k, k ≠ "status" → (body.unset "status").get? k = body.get? k := by
    obtain ⟨ms, rfl, -⟩ := hbody.exists_obj
    intro k hk
    rw [Json.get?_unset_obj, if_neg hk]
  have hunset : (body.unset "status").Stands name revision :=
    hbody.congr (Json.normal_unset _ hbody.normal) (hget _ (by decide))
  have hstored : doc = (body.unset "status").revised (toString (c.revision + 1)) := by
    have hnotSome : ¬ (c.objects.get? (nameOf body)).isSome = true := by
      rw [hfree]
      exact nofun
    rw [create, if_neg hnotSome] at hdoc
    exact (Option.some.inj ((StringMap.get?_insert_self _ _ _).symm.trans hdoc)).symm
  subst hstored
  constructor
  · obtain ⟨ns, m, hns, -⟩ := hunset.exists_metadata
    have hrevised := hunset.get?_revised hns (toString (c.revision + 1)) "metadata"
    rw [if_pos rfl] at hrevised
    rw [Json.at?_pair hrevised, Entries.find?_insert, if_neg (by decide),
      Json.at?_pair ((hget _ (by decide)).symm.trans hns)]
  · intro hr
    exact hunset.rereads_revised (hr.congr (hget _ (by decide))) _

/-- the cluster serves what an installation is asked for, and counts the writes -/
theorem hosts_serve (h : c.Sound) (hsecret : c.secrets.get? secretName = some secret) (hplain : r.HasPlainNames)
    (hproper : r.call.Proper) (hstored : Stored c.objects) :
    ∃ w, Hosts secretName secret c.objects r.call (c.serve r).1 w (c.serve r).2.objects ∧
      c.Counts (c.serve r).2 w := by
  obtain ⟨w, hserves, hcounts⟩ := serves_serve h hplain hproper hstored
  have hhandle : c.serve r = c.respond r.call := serve_eq_respond h hplain
  refine ⟨w, ⟨hserves, fun hcall => ?_, fun v body doc hcall hw hdoc => ?_⟩, hcounts⟩
  · rw [hhandle, hcall, respond, hsecret]
    exact carries_ofJson secret rfl
  · rw [hcall] at hserves hproper
    obtain ⟨name, revision, hbody⟩ := hproper
    rw [hhandle, hcall] at hdoc
    rcases hserves.create_cases with ⟨_, _, hfree, -⟩ | ⟨rfl, -⟩
    · exact retained_create hbody hfree hdoc
    · cases hw

/-- a cluster with this secret as a server of any namespace -/
def asInstallation (namespaceName secretName : String) (secret : Json) :
    Server (Hosts secretName secret) namespaceName { c : Cluster // c.Sound ∧ c.secrets.get? secretName = some secret } where
  objects t := t.1.objects
  serve t r := ((t.1.serve r).1, ⟨(t.1.serve r).2, sound_serve t.2.1 r, by rw [secrets_serve]; exact t.2.2⟩)
  lawful t _ _ hplain hproper hstored :=
    let ⟨w, hserves, _⟩ := hosts_serve t.2.1 t.2.2 hplain hproper hstored
    ⟨w, hserves⟩

end Cluster

namespace Adoption

variable {cluster : Cluster} {c : Context} {secret : Json} {sec : Secret} {pin : Option String} {n i : Nat}
  {S : Sharing (Except OperatorError Adoption)}

/-! ## Attempts on it -/

/-- a cluster with this secret, which holds the objects that are shared -/
structure Backs (cluster : Cluster) (secretName : String) (secret : Json) (S : Sharing (Except OperatorError Adoption)) :
    Prop where
  sound : cluster.Sound
  secret : cluster.secrets.get? secretName = some secret
  objects : S.objects = cluster.objects

/-- an attempt at a stage has its request served by the cluster, and goes on with the answer, or with another one when it
is lost -/
theorem Backs.exists_step (h : Backs cluster c.secretName secret S) (hstored : Stored S.objects) {stage : Stage}
    {r : Request} (hruns : Runs c stage (S.programs i)) (hr : stage.request? c = some r)
    (hns : r.namespaceName = c.namespaceName) (hnames : r.HasNames) (hproper : r.call.Proper) :
    ∃ b w cluster', Hosts c.secretName secret S.objects r.call b w cluster'.objects ∧ cluster.Counts cluster' w ∧
      ∀ a, a = b ∨ a.Failed → ∃ S', Sharing.Step (Hosts c.secretName secret) c.namespaceName S (.sent i r a w) S' ∧
        Backs cluster' c.secretName secret S' ∧ Runs c (stage.next c a) (S'.programs i) ∧
        ∀ j, j ≠ i → S'.programs j = S.programs j := by
  obtain ⟨next, hsend, hnext⟩ := hruns.exists_send hr (Request.fault?_of_names hnames)
  obtain ⟨w, hserved, hcounts⟩ := Cluster.hosts_serve h.sound h.secret (Request.hasPlainNames_of_names hnames) hproper
    (h.objects ▸ hstored)
  rw [← h.objects] at hserved
  refine ⟨_, w, (cluster.serve r).2, hserved, hcounts, fun a ha => ?_⟩
  refine ⟨S.advance i (next a) (cluster.serve r).2.objects, .served hsend hns hserved ha,
    ⟨Cluster.sound_serve h.sound r,
      (congrArg (StringMap.get? · c.secretName) (Cluster.secrets_serve cluster r)).trans h.secret, rfl⟩,
    ?_, fun j hj => S.advance_of_ne hj _ _⟩
  rw [Sharing.advance_self]
  exact hnext a

/-- an attempt reads the secret and lists the objects -/
def reading (c : Context) (i : Nat) (a₁ a₂ : Answer) : List Event :=
  [.sent i ⟨c.namespaceName, .readSecret c.secretName⟩ a₁ none, .sent i ⟨c.namespaceName, .list⟩ a₂ none]

/-- the cluster serves both, and the attempt goes on with what was listed -/
theorem Backs.exists_reading (h : Backs cluster c.secretName secret S) (hi : S.programs i = (attempt c).run)
    (hextent : Extent (.ofSecret sec) c.namespaceName S.objects pin n) (hsecret : Secret.codec.decode secret = .ok sec)
    (hlegacy : (Settings.ofSecret sec).isLegacy = true) (hnamespace : IsName c.namespaceName)
    (hsecretName : IsName c.secretName) :
    ∃ a₁ a₂ S' cluster', Sharing.Trace (Hosts c.secretName secret) c.namespaceName S (reading c i a₁ a₂) S' ∧
      Backs cluster' c.secretName secret S' ∧ S'.objects = S.objects ∧
      Cluster.revision cluster' = cluster.revision ∧ Serves S.objects .list a₂ none S.objects ∧
      Runs c ((Stage.listing (.ofSecret sec)).next c a₂) (S'.programs i) ∧ ∀ j, j ≠ i → S'.programs j = S.programs j := by
  obtain ⟨a₁, w₁, cluster₁, hserved₁, hcounts₁, hstep₁⟩ := h.exists_step
    (r := ⟨c.namespaceName, .readSecret c.secretName⟩) hextent.stored (hi ▸ runs_attempt c) rfl rfl
    ⟨hnamespace, fun n hn => Option.some.inj hn ▸ hsecretName⟩ trivial
  obtain ⟨rfl, hsame₁⟩ := hserved₁.serves.secret_cases
  obtain ⟨S₁, hs₁, hbacks₁, hruns₁, hothers₁⟩ := hstep₁ a₁ (Or.inl rfl)
  rw [next_readingSecret hsecret hlegacy (hserved₁.secret rfl)] at hruns₁
  have hobjects₁ : S₁.objects = S.objects := hbacks₁.objects.trans hsame₁
  obtain ⟨a₂, w₂, cluster₂, hserved₂, hcounts₂, hstep₂⟩ := hbacks₁.exists_step (hobjects₁ ▸ hextent.stored) hruns₁ rfl rfl
    ⟨hnamespace, nofun⟩ trivial
  obtain ⟨rfl, hsame₂, -⟩ := hserved₂.serves.list_cases
  obtain ⟨S₂, hs₂, hbacks₂, hruns₂, hothers₂⟩ := hstep₂ a₂ (Or.inl rfl)
  have hserves := hserved₂.serves
  rw [hsame₂, hobjects₁] at hserves
  refine ⟨a₁, a₂, S₂, cluster₂, .step (.step .start hs₁) hs₂, hbacks₂, hbacks₂.objects.trans (hsame₂.trans hobjects₁),
    ?_, hserves, hruns₂, fun j hj => (hothers₂ j hj).trans (hothers₁ j hj)⟩
  exact (show cluster₂.revision = cluster₁.revision from hcounts₂.revision).trans hcounts₁.revision

/-! ## An interrupted attempt -/

/-- the secret of an installation -/
def installationSecret : Json :=
  .obj [("data", .obj [("ROUTE_HOSTNAME", .str "YQ=="), ("SYNDESIS_VERSION", .str "MS44")])]

def installationContext : Context where
  namespaceName := "syndesis"

/-- no object is stored, and no attempt has begun -/
def beginning : Sharing (Except OperatorError Adoption) where
  objects := .empty
  programs _ := (attempt installationContext).run

theorem exists_decode_installationSecret :
    ∃ sec, Secret.codec.decode installationSecret = .ok sec ∧ (Settings.ofSecret sec).isLegacy = true := by
  have hlegacy : (Secret.codec.decode installationSecret).toOption.map (fun sec => (Settings.ofSecret sec).isLegacy) =
      some true := by decide +kernel
  cases hdecode : Secret.codec.decode installationSecret with
  | ok sec =>
    rw [hdecode] at hlegacy
    exact ⟨sec, rfl, Option.some.inj hlegacy⟩
  | error e =>
    rw [hdecode] at hlegacy
    exact absurd hlegacy nofun

theorem isName_namespaceName : IsName installationContext.namespaceName := ⟨by decide, by decide, by decide⟩

theorem isName_secretName : IsName installationContext.secretName := ⟨by decide, by decide, by decide⟩

/-- the first attempt creates the object and stops, as the answer is lost -/
theorem exists_lostCreation (hsecret : Secret.codec.decode installationSecret = .ok sec)
    (hlegacy : (Settings.ofSecret sec).isLegacy = true) :
    ∃ es S doc, ∃ cluster : Cluster, Sharing.Trace (Hosts installationContext.secretName installationSecret)
        installationContext.namespaceName beginning es S ∧ es.filterMap Event.revision? = ["101"] ∧
      Backs cluster installationContext.secretName installationSecret S ∧ cluster.revision = 101 ∧
      S.objects = only doc ∧ Created (.ofSecret sec) installationContext.namespaceName "101" doc ∧
      S.programs 1 = (attempt installationContext).run := by
  have hbacks : Backs { secrets := .singleton installationContext.secretName installationSecret }
      installationContext.secretName installationSecret beginning :=
    ⟨⟨rfl, rfl⟩, StringMap.get?_singleton_self _ _, rfl⟩
  obtain ⟨a₁, a₂, S₁, cluster₁, ht, hbacks₁, hobjects₁, hrevision₁, hserves, hruns, hothers₁⟩ :=
    hbacks.exists_reading (i := 0) rfl .absent hsecret hlegacy isName_namespaceName isName_secretName
  rw [next_listing hserves] at hruns
  obtain ⟨b, w, cluster₂, hserved, hcounts, hstep⟩ := hbacks₁.exists_step
    (hobjects₁ ▸ fun _ _ hd => absurd hd nofun) hruns rfl rfl ⟨isName_namespaceName, nofun⟩ ⟨_, _, stands_body _ _⟩
  rw [hobjects₁] at hserved
  obtain ⟨revision, doc, rfl, hobjects₂, hcreated, -⟩ := exists_created (c := installationContext) hserved
  obtain ⟨S₂, hs, hbacks₂, -, hothers₂⟩ := hstep (.unreachable "") (Or.inr (.unreachable ""))
  have hrevision : revision = "101" := by
    rw [show revision = toString (cluster₁.revision + 1) from hcounts.next _ rfl, hrevision₁]
    rfl
  subst hrevision
  refine ⟨_, S₂, doc, cluster₂, ht.append (.step .start hs), rfl, hbacks₂, ?_, hbacks₂.objects.trans hobjects₂, hcreated,
    (hothers₂ 1 nofun).trans (hothers₁ 1 nofun)⟩
  rw [show cluster₂.revision = cluster₁.revision + 1 from hcounts.revision, hrevision₁]

/-- and the second one describes it -/
theorem exists_interruptedRun : ∃ (sec : Secret) (es : List Event) (S : Sharing (Except OperatorError Adoption))
    (cluster : Cluster), Secret.codec.decode installationSecret = .ok sec ∧ (Settings.ofSecret sec).isLegacy = true ∧
      Sharing.Trace (Hosts installationContext.secretName installationSecret) installationContext.namespaceName beginning es
        S ∧ Fresh beginning.objects es ∧ (∃ e ∈ es, e.Accepts .patch) ∧
      Backs cluster installationContext.secretName installationSecret S := by
  obtain ⟨sec, hsecret, hlegacy⟩ := exists_decode_installationSecret
  obtain ⟨es, S, doc, cluster, ht, hgiven, hbacks, hrevision, hobjects, hcreated, hi⟩ :=
    exists_lostCreation hsecret hlegacy
  have hextent : Extent (.ofSecret sec) installationContext.namespaceName S.objects (some "101") 0 := by
    rw [hobjects]
    exact .created hcreated
  obtain ⟨a₁, a₂, S₁, cluster₁, ht₁, hbacks₁, hobjects₁, hrevision₁, hserves, hruns, -⟩ :=
    hbacks.exists_reading (i := 1) hi hextent hsecret hlegacy isName_namespaceName isName_secretName
  rw [hobjects] at hserves hobjects₁
  obtain ⟨pending, hnext, haddresses⟩ := hcreated.next_listing (c := installationContext) hserves rfl
  rw [hnext] at hruns
  have hr : (Stage.resuming (.ofSecret sec) pending).request? installationContext =
      some (describing (.ofSecret sec) installationContext.namespaceName "101") :=
    congrArg some (haddresses.statusRequest_eq installationContext)
  obtain ⟨a₃, w, cluster₂, hserved, hcounts, hstep⟩ := hbacks₁.exists_step
    (hobjects₁ ▸ .singleton ⟨"101", hcreated.stands⟩) hruns hr rfl
    ⟨isName_namespaceName, fun n hn => Option.some.inj hn ▸ isName_defaultName⟩
    (Pipeline.normal_statusPatch _ _)
  have hserves' := hserved.serves
  rw [hobjects₁] at hserves'
  obtain ⟨revision, doc', rfl, -⟩ := hcreated.exists_described hserves'
  obtain ⟨S₂, hs, hbacks₂, -⟩ := hstep a₃ (Or.inl rfl)
  have hnew : revision = "102" := by
    rw [show revision = toString (cluster₁.revision + 1) from hcounts.next _ rfl, hrevision₁, hrevision]
    rfl
  subst hnew
  refine ⟨sec, _, S₂, cluster₂, hsecret, hlegacy, (ht.append ht₁).append (.step .start hs),
    ⟨?_, fun _ _ hd => absurd hd nofun⟩, ⟨_, List.mem_append_right _ (List.mem_singleton_self _), rfl⟩, hbacks₂⟩
  rw [List.append_assoc, List.filterMap_append, hgiven]
  show ["101", "102"].Nodup
  decide

end Adoption

end MigrationOperator
