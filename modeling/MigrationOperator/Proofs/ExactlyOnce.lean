/-
Adoption happens exactly once.

Any number of attempts at adoption share a store that holds no object yet, next to a secret that marks an installation;
each request succeeds, or fails without effect, or takes effect while its answer is lost, and any attempt may stop at any
moment. `Consistent` is the invariant: the one object is absent, created or described, and an attempt that is about to
write a status addresses the revision that the object was created at, which is never given again. `Consistent.step` shows
that one request keeps it, and `adopted_exactly_once` what it means.
-/
import MigrationOperator.Proofs.Adoption.OnCluster

namespace MigrationOperator.Adoption

variable {s : Settings} {ns secretName : String} {secret : Json} {sec : Secret} {c : Context} {stage : Stage}
  {r : Request} {objs objs' : StringMap Json} {pin pin' : Option String} {n : Nat} {a : Answer} {w : Option Write}
  {S₀ S S' : Sharing (Except OperatorError Adoption)} {es : List Event} {e : Event}

/-! ## What an attempt is about to write -/

/-- a stage that writes the adoption of these settings, and the status at no revision but this one -/
def Stage.Follows (s : Settings) (ns : String) (pin : Option String) : Stage → Prop
  | .readingSecret | .finished _ => True
  | .listing s' | .creating s' => s' = s
  | .describing s' created => s' = s ∧ ∃ revision, pin = some revision ∧
      created.metadata.resourceVersion = some revision
  | .resuming s' pending => s' = s ∧ ∃ revision, pin = some revision ∧ Addresses ns revision pending

theorem Stage.Follows.mono (h : stage.Follows s ns pin) (hpin : pin' = pin ∨ pin = none) :
    stage.Follows s ns pin' := by
  have hkept : ∀ {revision}, pin = some revision → pin' = some revision := by
    rintro revision rfl
    exact hpin.resolve_right nofun
  cases stage with
  | describing s' created =>
    obtain ⟨hs, revision, hrevision, hcreated⟩ := h
    exact ⟨hs, revision, hkept hrevision, hcreated⟩
  | resuming s' pending =>
    obtain ⟨hs, revision, hrevision, hpending⟩ := h
    exact ⟨hs, revision, hkept hrevision, hpending⟩
  | _ => exact h

/-- once the status was sent, nothing is written any more -/
theorem Stage.follows_next_describing (s' : Settings) (created : LegacyResource) (a : Answer) :
    ((Stage.describing s' created).next c a).Follows s ns pin := by
  obtain ⟨result, hfinished⟩ := Stage.exists_next_describing c s' created a
  rw [hfinished]
  exact trivial

theorem Stage.follows_next_resuming (s' : Settings) (pending : LegacyResource) (a : Answer) :
    ((Stage.resuming s' pending).next c a).Follows s ns pin := by
  obtain ⟨result, hfinished⟩ := Stage.exists_next_resuming c s' pending a
  rw [hfinished]
  exact trivial

/-- an attempt that got no answer, or a failure, goes on as before or ends -/
theorem Stage.Follows.next_failed (h : stage.Follows s ns pin) (ha : a.Failed) :
    (stage.next c a).Follows s ns pin := by
  cases stage with
  | readingSecret =>
    obtain ⟨e, he⟩ := ha.exists_decode_eq Secret.codec
    rw [Stage.next, he]
    dsimp only
    split
    · exact trivial
    · exact trivial
  | listing s' =>
    -- a listing that finds nothing leads on to the creation
    obtain ⟨e, he⟩ := ha.exists_decode_eq ObjectList.codec
    rw [Stage.next, he]
    dsimp only
    split
    · exact h
    · exact trivial
  | creating s' =>
    obtain ⟨e, he⟩ := ha.exists_decode_eq Legacy.kind.codec
    rw [Stage.next, he]
    exact trivial
  | describing s' created => exact Stage.follows_next_describing s' created a
  | resuming s' pending => exact Stage.follows_next_resuming s' pending a
  | finished result => exact h

/-! ## One request -/

/-- what is stored decides how an attempt that lists it goes on -/
theorem Extent.list (h : Extent s ns objs pin n) (hlegacy : s.isLegacy = true) (hns : c.namespaceName = ns)
    (hs : Serves objs .list a w objs') : ((Stage.listing s).next c a).Follows s ns pin := by
  cases h with
  | absent =>
    rw [next_listing hs]
    exact rfl
  | created hcreated =>
    obtain ⟨pending, hnext, haddresses⟩ := hcreated.next_listing hs hns
    rw [hnext]
    exact ⟨rfl, _, rfl, haddresses⟩
  | described hdescribed _ =>
    rw [hdescribed.next_listing hlegacy hs]
    exact trivial

/-- the object is created when it is absent, and never again -/
theorem Extent.create (h : Extent s ns objs pin n)
    (hs : Hosts secretName secret objs (.create .legacy (body s ns)) a w objs') :
    ∃ pin', Extent s ns objs' pin' n ∧ (pin' = pin ∨ pin = none ∧ ∃ v, w = some v ∧ pin' = some v.revision) ∧
      ((Stage.creating s).next c a).Follows s ns pin' := by
  by_cases hobjs : objs = .empty
  · subst hobjs
    cases h with
    | absent =>
      obtain ⟨revision, doc, rfl, rfl, hcreated, created, hnext, hrevision⟩ := exists_created (c := c) hs
      refine ⟨some revision, .created hcreated, Or.inr ⟨rfl, _, rfl, rfl⟩, ?_⟩
      rw [hnext]
      exact ⟨rfl, revision, rfl, hrevision⟩
  · obtain ⟨doc, hdoc⟩ : ∃ doc, objs = only doc := by
      cases h with
      | absent => exact absurd rfl hobjs
      | created _ => exact ⟨_, rfl⟩
      | described _ _ => exact ⟨_, rfl⟩
    rcases hs.serves.create_cases with ⟨_, _, hfree, -⟩ | ⟨-, rfl, hfailed, -⟩
    · rw [hdoc, (stands_body s ns).nameOf_eq, StringMap.get?_singleton_self] at hfree
      exact absurd hfree nofun
    · have hfollows : (Stage.creating s).Follows s ns pin := rfl
      exact ⟨pin, h, Or.inl rfl, hfollows.next_failed hfailed⟩

/-- the object is described when it was created, and never again -/
theorem Extent.describe {revision : String} (h : Extent s ns objs (some revision) n)
    (hs : Serves objs (describing s ns revision).call a w objs')
    (hnew : ∀ v, w = some v → some revision ≠ some v.revision) :
    Extent s ns objs' (some revision) (n + if w.isSome ∧ (describing s ns revision).method = .patch then 1 else 0) := by
  cases h with
  | created hcreated =>
    obtain ⟨new, doc', rfl, rfl, hdescribed, -⟩ := hcreated.exists_described hs
    exact .described hdescribed fun heq => hnew _ rfl (congrArg some heq.symm)
  | described hdescribed hne =>
    obtain ⟨rfl, rfl⟩ := hdescribed.refuses hne hs
    exact .described hdescribed hne

/-- a request that is served takes the adoption further or leaves it where it is, and the attempt goes on with it -/
theorem Extent.serve (h : Extent s ns objs pin n) (hf : stage.Follows s ns pin) (hr : stage.request? c = some r)
    (hsecret : Secret.codec.decode secret = .ok sec) (hs : .ofSecret sec = s) (hlegacy : s.isLegacy = true)
    (hns : c.namespaceName = ns) (hname : c.secretName = secretName)
    (hserved : Hosts secretName secret objs r.call a w objs') (hnew : ∀ v, w = some v → pin ≠ some v.revision) :
    ∃ pin', Extent s ns objs' pin' (n + if w.isSome ∧ r.method = .patch then 1 else 0) ∧
      (pin' = pin ∨ pin = none ∧ ∃ v, w = some v ∧ pin' = some v.revision) ∧ (stage.next c a).Follows s ns pin' := by
  cases stage with
  | readingSecret =>
    obtain rfl := Option.some.inj hr
    obtain ⟨rfl, rfl⟩ := hserved.serves.secret_cases
    refine ⟨pin, h, Or.inl rfl, ?_⟩
    rw [next_readingSecret hsecret (hs ▸ hlegacy) (hserved.secret (congrArg Call.readSecret hname))]
    exact hs
  | listing s' =>
    obtain rfl : s' = s := hf
    obtain rfl := Option.some.inj hr
    obtain ⟨rfl, rfl, -⟩ := hserved.serves.list_cases
    exact ⟨pin, h, Or.inl rfl, h.list hlegacy hns hserved.serves⟩
  | creating s' =>
    obtain rfl : s' = s := hf
    obtain rfl := Option.some.inj hr
    rw [hns] at hserved
    obtain ⟨pin', hextent, hpin, hfollows⟩ := h.create (c := c) hserved
    exact ⟨pin', by simpa [Request.method, Call.method] using hextent, hpin, hfollows⟩
  | describing s' created =>
    obtain ⟨rfl, revision, rfl, hrevision⟩ := hf
    have haddresses : Addresses ns revision
        ((s'.toResource c.namespaceName).atRevision created.metadata.resourceVersion) :=
      ⟨rfl, congrArg some hns, hrevision⟩
    obtain rfl : describing s' ns revision = r := (haddresses.statusRequest_eq c).symm.trans (Option.some.inj hr)
    exact ⟨_, h.describe hserved.serves hnew, Or.inl rfl, Stage.follows_next_describing s' created a⟩
  | resuming s' pending =>
    obtain ⟨rfl, revision, rfl, haddresses⟩ := hf
    obtain rfl : describing s' ns revision = r := (haddresses.statusRequest_eq c).symm.trans (Option.some.inj hr)
    exact ⟨_, h.describe hserved.serves hnew, Or.inl rfl, Stage.follows_next_resuming s' pending a⟩
  | finished result => cases hr

/-! ## Any number of attempts -/

/-- the adoption went this far, and whatever an attempt is about to write follows it -/
def Consistent (s : Settings) (ns secretName : String) (es : List Event)
    (S : Sharing (Except OperatorError Adoption)) : Prop :=
  ∃ pin, Extent s ns S.objects pin (es.countP (Event.Accepts .patch ·)) ∧
    (∀ revision, pin = some revision → revision ∈ es.filterMap Event.revision?) ∧
    ∀ i, ∃ c stage, Runs c stage (S.programs i) ∧ stage.Follows s ns pin ∧ c.namespaceName = ns ∧
      c.secretName = secretName

theorem countP_snoc_sent (es : List Event) (i : Nat) (r : Request) (a : Answer) (w : Option Write) :
    (es ++ [Event.sent i r a w]).countP (Event.Accepts .patch ·) =
      es.countP (Event.Accepts .patch ·) + if w.isSome ∧ r.method = .patch then 1 else 0 := by
  have haccepts : Event.Accepts .patch (.sent i r a w) ↔ w.isSome ∧ r.method = .patch := by
    cases w <;> simp [Event.Accepts]
  rw [List.countP_append, List.countP_singleton]
  by_cases h : w.isSome ∧ r.method = .patch
  · rw [if_pos h, if_pos (decide_eq_true (haccepts.2 h))]
  · rw [if_neg h, if_neg fun hd => h (haccepts.1 (of_decide_eq_true hd))]

theorem Consistent.step (hc : Consistent s ns secretName es S) (hsecret : Secret.codec.decode secret = .ok sec)
    (hs : .ofSecret sec = s) (hlegacy : s.isLegacy = true) (hfresh : Fresh objs (es ++ [e]))
    (hstep : Sharing.Step (Hosts secretName secret) ns S e S') : Consistent s ns secretName (es ++ [e]) S' := by
  obtain ⟨pin, hextent, hgiven, hprograms⟩ := hc
  obtain ⟨i, r, next, a, w, rfl, hi, hS', heffect⟩ := hstep.sent_cases
  obtain ⟨c, stage, hruns, hf, hns, hname⟩ := hprograms i
  rw [hi] at hruns
  obtain ⟨hr, hnext⟩ := hruns.of_send
  -- a revision that was given before is not given by this event
  have hnew : ∀ v, w = some v → pin ≠ some v.revision := by
    rintro v rfl hpin
    have hnodup := hfresh.nodup
    rw [List.filterMap_append] at hnodup
    exact absurd rfl ((List.nodup_append.1 hnodup).2.2 _ (hgiven _ hpin) v.revision (List.mem_singleton.2 rfl))
  -- the others go on as they were, with the extent of the adoption as it is now
  have hrest : ∀ pin', (pin' = pin ∨ pin = none) → (stage.next c a).Follows s ns pin' →
      ∀ j, ∃ c stage, Runs c stage (S'.programs j) ∧ stage.Follows s ns pin' ∧ c.namespaceName = ns ∧
        c.secretName = secretName := by
    intro pin' hpin hfollows j
    rw [hS']
    by_cases hj : j = i
    · rw [hj, Sharing.advance_self]
      exact ⟨c, _, hnext a, hfollows, hns, hname⟩
    · rw [Sharing.advance_of_ne S hj]
      obtain ⟨c', stage', hruns', hf', hother⟩ := hprograms j
      exact ⟨c', stage', hruns', hf'.mono hpin, hother⟩
  rcases heffect with ⟨b, -, hserved, ha⟩ | ⟨rfl, hsame, ha⟩
  · obtain ⟨pin', hextent', hpin, hfollows⟩ :=
      hextent.serve hf hr hsecret hs hlegacy hns hname hserved hnew
    have hfollows' : (stage.next c a).Follows s ns pin' := by
      rcases ha with rfl | ha
      · exact hfollows
      · exact (hf.mono (hpin.imp_right And.left)).next_failed ha
    refine ⟨pin', countP_snoc_sent es i r a w ▸ hextent', fun revision hrevision => ?_,
      hrest pin' (hpin.imp_right And.left) hfollows'⟩
    rw [List.filterMap_append]
    rcases hpin with rfl | ⟨-, v, rfl, rfl⟩
    · exact List.mem_append_left _ (hgiven revision hrevision)
    · exact List.mem_append_right _ (List.mem_singleton.2 (Option.some.inj hrevision).symm)
  · refine ⟨pin, ?_, fun revision hrevision => ?_, hrest pin (Or.inl rfl) (hf.next_failed ha)⟩
    · rwa [hsame, countP_snoc_sent]
    · rw [List.filterMap_append]
      exact List.mem_append_left _ (hgiven revision hrevision)

/-- nothing happened yet -/
theorem Consistent.start (hempty : S.objects = .empty)
    (hprograms : ∀ i, ∃ c, S.programs i = (attempt c).run ∧ c.namespaceName = ns ∧ c.secretName = secretName) :
    Consistent s ns secretName [] S := by
  refine ⟨none, hempty ▸ .absent, nofun, fun i => ?_⟩
  obtain ⟨c, hi, hns, hname⟩ := hprograms i
  exact ⟨c, .readingSecret, hi ▸ runs_attempt c, trivial, hns, hname⟩

theorem Consistent.of_trace (hsecret : Secret.codec.decode secret = .ok sec) (hs : .ofSecret sec = s)
    (hlegacy : s.isLegacy = true) (hstart : Consistent s ns secretName [] S₀) (hfresh : Fresh objs es)
    (ht : Sharing.Trace (Hosts secretName secret) ns S₀ es S) : Consistent s ns secretName es S := by
  induction ht with
  | start => exact hstart
  | step _ hstep ih => exact (ih hfresh.of_append).step hsecret hs hlegacy hfresh hstep

/-! ## What it means -/

/-- an object of this name whose spec is the one that the settings describe -/
structure Represents (s : Settings) (ns : String) (doc : Json) : Prop where
  name : Cluster.nameOf doc = "app"
  spec : ∃ j, doc.get? "spec" = some j ∧ Legacy.Spec.codec.decode j = .ok (s.toResource ns).spec

/-- and whose status says that an installation of this version was adopted -/
structure Announces (s : Settings) (ns : String) (doc : Json) : Prop extends Represents s ns doc where
  status : ∃ j version, doc.get? "status" = some j ∧ s.value? .version = some version ∧
    Status.codec.decode j = .ok { phase := .upgradingLegacy, reason := .notYetCreated, version }

theorem Created.represents {revision : String} {doc : Json} (h : Created s ns revision doc) : Represents s ns doc :=
  ⟨h.stands.nameOf_eq, _, h.spec, Legacy.Spec.lawful_codec s.spec⟩

theorem Described.announces {revision : String} {doc : Json} (h : Described s revision doc) (hlegacy : s.isLegacy = true) :
    Announces s ns doc := by
  obtain ⟨v, hv, -⟩ := exists_version hlegacy
  refine ⟨⟨h.stands.nameOf_eq, _, h.spec, Legacy.Spec.lawful_codec s.spec⟩, _, v, h.status, hv, ?_⟩
  rw [decode_status, Settings.status, Settings.text, hv]
  rfl

theorem Extent.represents (h : Extent s ns objs pin n) :
    objs = .empty ∨ ∃ doc, objs = only doc ∧ Represents s ns doc := by
  cases h with
  | absent => exact Or.inl rfl
  | created h => exact Or.inr ⟨_, rfl, h.represents⟩
  | described h _ => exact Or.inr ⟨_, rfl, ⟨h.stands.nameOf_eq, _, h.spec, Legacy.Spec.lawful_codec s.spec⟩⟩

theorem Extent.le_one (h : Extent s ns objs pin n) : n ≤ 1 := by
  cases h with
  | absent => omega
  | created _ => omega
  | described _ _ => omega

theorem Extent.announces (h : Extent s ns objs pin n) (hlegacy : s.isLegacy = true) (hn : 0 < n) :
    ∃ doc, objs = only doc ∧ Announces s ns doc := by
  cases h with
  | absent => exact absurd hn nofun
  | created _ => exact absurd hn nofun
  | described h _ => exact ⟨_, rfl, h.announces hlegacy⟩

/-- **Adoption happens exactly once.** At every moment the store holds at most one object, of the name and the spec that
the settings describe. At most one status patch is ever accepted, and it leaves the status of an adopted installation. From
wherever things stand, one attempt without faults adopts the installation or finds it managed, and leaves that object with
that status. -/
theorem adopted_exactly_once (hsecret : Secret.codec.decode secret = .ok sec)
    (hlegacy : (Settings.ofSecret sec).isLegacy = true) (hempty : S₀.objects = .empty)
    (hprograms : ∀ i, ∃ c, S₀.programs i = (attempt c).run ∧ c.namespaceName = ns ∧ c.secretName = secretName)
    (hfresh : Fresh S₀.objects es) (ht : Sharing.Trace (Hosts secretName secret) ns S₀ es S) :
    (S.objects = .empty ∨ ∃ doc, S.objects = .singleton "app" doc ∧ Represents (.ofSecret sec) ns doc) ∧
      es.countP (Event.Accepts .patch ·) ≤ 1 ∧
      ((∃ e ∈ es, e.Accepts .patch) → ∃ doc, S.objects = .singleton "app" doc ∧ Announces (.ofSecret sec) ns doc) ∧
      ∀ (σ : Type) (server : Server (Hosts secretName secret) ns σ) (t : σ) (c : Context),
        server.objects t = S.objects → c.namespaceName = ns → c.secretName = secretName → IsName ns →
        IsName secretName →
        (((attempt c).run.exec server.serve t).result = .ok (.adopted "app") ∨
          ((attempt c).run.exec server.serve t).result = .ok .alreadyManaged) ∧
        ∃ doc, server.objects ((attempt c).run.exec server.serve t).server = .singleton "app" doc ∧
          Announces (.ofSecret sec) ns doc := by
  obtain ⟨pin, hextent, -⟩ := Consistent.of_trace hsecret rfl hlegacy (.start hempty hprograms) hfresh ht
  refine ⟨hextent.represents, hextent.le_one, ?_, ?_⟩
  · rintro ⟨e, he, hpatch⟩
    exact hextent.announces hlegacy (List.countP_pos_iff.2 ⟨e, he, decide_eq_true hpatch⟩)
  · intro σ server t c hobjs hns hname hnamespace hsecretName
    rw [← hobjs] at hextent
    obtain ⟨hresult, revision, doc, hdoc, hdescribed⟩ :=
      hextent.completes hsecret hlegacy hns hname hnamespace hsecretName
    exact ⟨hresult, doc, hdoc, hdescribed.announces hlegacy⟩

/-- an attempt stops once it created the object, another one adopts the installation, and a third one finds it managed or
adopts it -/
theorem adopted_exactly_once_interrupted : ∃ sec es S cluster, Secret.codec.decode installationSecret = .ok sec ∧
    Sharing.Trace (Hosts defaultSecretName installationSecret) "syndesis" beginning es S ∧
    es.countP (Event.Accepts .patch ·) = 1 ∧
    (∃ doc, S.objects = .singleton "app" doc ∧ Announces (.ofSecret sec) "syndesis" doc) ∧
    (Cluster.asInstallation "syndesis" defaultSecretName installationSecret).objects cluster = S.objects ∧
    ∃ doc, (Cluster.asInstallation "syndesis" defaultSecretName installationSecret).objects
      ((attempt installationContext).run.exec
        (Cluster.asInstallation "syndesis" defaultSecretName installationSecret).serve cluster).server =
          .singleton "app" doc ∧ Announces (.ofSecret sec) "syndesis" doc := by
  obtain ⟨sec, es, S, cluster, hsecret, hlegacy, ht, hfresh, hpatch, hbacks⟩ := exists_interruptedRun
  obtain ⟨-, hcount, hannounces, hcompletes⟩ :=
    adopted_exactly_once hsecret hlegacy rfl (fun _ => ⟨_, rfl, rfl, rfl⟩) hfresh ht
  obtain ⟨e, he, haccepts⟩ := hpatch
  have hpos : 0 < es.countP (Event.Accepts .patch ·) := List.countP_pos_iff.2 ⟨e, he, decide_eq_true haccepts⟩
  obtain ⟨-, hleft⟩ := hcompletes _ (Cluster.asInstallation "syndesis" defaultSecretName installationSecret)
    ⟨cluster, hbacks.sound, hbacks.secret⟩ installationContext hbacks.objects.symm rfl rfl isName_namespaceName
    isName_secretName
  exact ⟨sec, es, S, ⟨cluster, hbacks.sound, hbacks.secret⟩, hsecret, ht, Nat.le_antisymm hcount hpos,
    hannounces ⟨e, he, haccepts⟩, hbacks.objects.symm, hleft⟩

end MigrationOperator.Adoption
