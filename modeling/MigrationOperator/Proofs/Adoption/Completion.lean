/-
One attempt at adoption without faults.

An installation is a store together with the secret that marks it (`Hosts`). Stage by stage, `next_readingSecret` to
`Described.next_resuming` say what it answers and where the attempt goes on. From wherever an adoption stands, an attempt
that is served request by request adopts the installation, or finds that it is managed, and leaves the described object
(`completes_absent`, `Created.completes`, `Described.completes`).
-/
import MigrationOperator.Proofs.Adoption.Object
import MigrationOperator.Proofs.Api.Sending
import MigrationOperator.Proofs.Store.Sharing

namespace MigrationOperator.Adoption

/-! ## Installations -/

/-- what is kept of the metadata of a new object -/
structure Retained (body doc : Json) : Prop where
  namespaceName : doc.at? ["metadata", "namespace"] = body.at? ["metadata", "namespace"]
  rereads : body.Rereads → doc.Rereads

/-- a store next to a secret that stays as it is; new objects keep their namespace, and metadata that reads again -/
structure Hosts (secretName : String) (secret : Json) (objs : StringMap Json) (call : Call) (a : Answer)
    (w : Option Write) (objs' : StringMap Json) : Prop where
  serves : Serves objs call a w objs'
  secret : call = .readSecret secretName → a.Carries secret
  created : ∀ v body doc, call = .create v body → w.isSome → objs'.get? (Cluster.nameOf body) = some doc →
    Retained body doc

variable {s : Settings} {ns secretName revision : String} {secret doc : Json} {sec : Secret} {c : Context}
  {objs : StringMap Json} {a : Answer} {w : Option Write}

/-- the one object of an adoption -/
abbrev only (doc : Json) : StringMap Json := .singleton Canonical.defaultName doc

/-- how far an adoption went: what is stored, the revision that the object was created at, if it was, and the number of
status patches that were accepted -/
inductive Extent (s : Settings) (ns : String) : StringMap Json → Option String → Nat → Prop where
  | absent : Extent s ns .empty none 0
  | created {revision : String} {doc : Json} (h : Created s ns revision doc) : Extent s ns (only doc) (some revision) 0
  | described {pin revision : String} {doc : Json} (h : Described s revision doc) (hne : revision ≠ pin) :
    Extent s ns (only doc) (some pin) 1

/-- whatever is stored carries a revision -/
theorem Extent.stored {pin : Option String} {n : Nat} (h : Extent s ns objs pin n) : Stored objs := by
  cases h with
  | absent => exact fun _ _ hd => absurd hd nofun
  | created h => exact .singleton ⟨_, h.stands⟩
  | described h _ => exact .singleton ⟨_, h.stands⟩

/-! ## Stage by stage -/

/-- the secret is that of an installation -/
theorem next_readingSecret (hsecret : Secret.codec.decode secret = .ok sec)
    (hlegacy : (Settings.ofSecret sec).isLegacy = true) (ha : a.Carries secret) :
    Stage.readingSecret.next c a = .listing (.ofSecret sec) := by
  have hread := (ha.decode_ok_iff Secret.codec).2 hsecret
  rw [Stage.next, hread]
  exact if_pos hlegacy

/-- nothing is listed, so the object is to be created -/
theorem next_listing (hs : Serves .empty .list a w objs) : (Stage.listing s).next c a = .creating s := by
  obtain ⟨-, -, revision, ha⟩ := hs.list_cases
  have hread := (ha.decode_ok_iff ObjectList.codec).2 (Json.decode_listing_nil revision)
  rw [Stage.next, hread]
  rfl

/-- what is listed was created and not described yet -/
theorem Created.next_listing (h : Created s ns revision doc) (hs : Serves (only doc) .list a w objs)
    (hns : c.namespaceName = ns) :
    ∃ pending, (Stage.listing s).next c a = .resuming s pending ∧ Addresses ns revision pending := by
  obtain ⟨-, -, listed, ha⟩ := hs.list_cases
  obtain ⟨d, pending, hd, hpending, haddresses⟩ := h.exists_pending
  have hread := (ha.decode_ok_iff ObjectList.codec).2 (Json.decode_listing hd listed)
  refine ⟨pending, ?_, haddresses⟩
  rw [Stage.next, hread]
  show Stage.afterListing c s [d] = _
  rw [Stage.afterListing, hns, hpending]
  exact if_neg Bool.false_ne_true

/-- what is listed is managed -/
theorem Described.next_listing (h : Described s revision doc) (hlegacy : s.isLegacy = true)
    (hs : Serves (only doc) .list a w objs) : (Stage.listing s).next c a = .finished (.ok .alreadyManaged) := by
  obtain ⟨-, -, listed, ha⟩ := hs.list_cases
  obtain ⟨d, hd, hmanaged⟩ := h.exists_managed hlegacy (s.toResource c.namespaceName)
  have hread := (ha.decode_ok_iff ObjectList.codec).2 (Json.decode_listing hd listed)
  rw [Stage.next, hread]
  show Stage.afterListing c s [d] = _
  rw [Stage.afterListing, hmanaged]
  exact if_neg Bool.false_ne_true

/-- where there is no object, it is created, and its status is to be written at the revision it was created at -/
theorem exists_created (hs : Hosts secretName secret .empty (.create .legacy (body s ns)) a w objs) :
    ∃ revision doc, w = some ⟨Canonical.defaultName, revision⟩ ∧ objs = only doc ∧ Created s ns revision doc ∧
      ∃ created, (Stage.creating s).next c a = .describing s created ∧
        created.metadata.resourceVersion = some revision := by
  have hname : Cluster.nameOf (body s ns) = Canonical.defaultName := (stands_body s ns).nameOf_eq
  rcases hs.serves.create_cases with ⟨doc, revision, -, hw, hobjs, hspec, hstatus, hstands, ha⟩ | ⟨-, -, -, doc, hdoc⟩
  · rw [hname] at hw hobjs hstands
    obtain ⟨hnamespace, hrereads⟩ := hs.created _ _ doc rfl (by rw [hw]; rfl) (by
      rw [hobjs, hname, StringMap.get?_insert_self])
    have hcreated : Created s ns revision doc :=
      ⟨hstands, hrereads (rereads_body s ns), hnamespace.trans (namespaceName_body s ns),
        hspec.trans (get?_spec_body s ns), hstatus⟩
    obtain ⟨created, hdecode, hrevision⟩ := hcreated.exists_decode
    have hread := (ha.decode_ok_iff Legacy.kind.codec).2 ((hstands.decode_label_iff _).2 hdecode)
    refine ⟨revision, doc, hw, hobjs, hcreated, created, ?_, hrevision⟩
    rw [Stage.next, hread]
  · cases hdoc

/-- the status of a created object is written at the revision it stands at -/
theorem Created.exists_described (h : Created s ns revision doc)
    (hs : Serves (only doc) (describing s ns revision).call a w objs) :
    ∃ new doc', w = some ⟨Canonical.defaultName, new⟩ ∧ objs = only doc' ∧ Described s new doc' ∧
      a.Carries (Cluster.label .legacy doc') := by
  rcases hs.patch_cases with ⟨found, doc', new, hw, hobjs, hpatched, ha⟩ | ⟨-, -, -, hstale⟩
  · obtain ⟨-, rfl⟩ := hpatched.eq_of_singleton
    refine ⟨new, doc', hw, hobjs.trans (StringMap.insert_singleton _ _ _),
      ⟨hpatched.stands, hpatched.rereads h.rereads, hpatched.spec.trans h.spec, ?_⟩, ha⟩
    rw [hpatched.status, h.status, Pipeline.get?_status_statusPatch]
    exact congrArg some (merge_status s)
  · have hfalse := hstale doc (StringMap.get?_singleton_self _ _)
    rw [h.stands.isCurrent (Pipeline.revisionOf_statusPatch _ _)] at hfalse
    exact absurd hfalse nofun

/-- a described object is not described again at an earlier revision -/
theorem Described.refuses (h : Described s revision doc) {pin : String} (hne : revision ≠ pin)
    (hs : Serves (only doc) (describing s ns pin).call a w objs) : w = none ∧ objs = only doc := by
  rcases hs.patch_cases with ⟨found, doc', new, -, -, hpatched, -⟩ | ⟨hw, hobjs, -, -⟩
  · obtain ⟨-, rfl⟩ := hpatched.eq_of_singleton
    have hcurrent := hpatched.current
    rw [Cluster.isCurrent, Pipeline.revisionOf_statusPatch, h.stands.revisionOf_eq] at hcurrent
    exact absurd (by simpa using hcurrent) hne
  · exact ⟨hw, hobjs⟩

/-- what the status write after a creation answers ends the attempt -/
theorem Described.next_describing (h : Described s revision doc) (ha : a.Carries (Cluster.label .legacy doc))
    (created : LegacyResource) :
    (Stage.describing s created).next c a = .finished (.ok (.adopted Canonical.defaultName)) := by
  obtain ⟨d, y, hd, hy, hname⟩ := h.exists_readBack .legacy
  have hread := (ha.decode_ok_iff Opaque.codec).2 hd
  rw [Stage.next, hread]
  dsimp only
  rw [hy]
  exact congrArg (fun n => Stage.finished (.ok (.adopted n))) hname

/-- and so does what that of a resumed adoption answers -/
theorem Described.next_resuming (h : Described s revision doc) (ha : a.Carries (Cluster.label .legacy doc))
    {pending : LegacyResource} (hname : pending.name = Canonical.defaultName) :
    (Stage.resuming s pending).next c a = .finished (.ok (.adopted Canonical.defaultName)) := by
  obtain ⟨d, -, hd, -⟩ := h.exists_readBack .legacy
  have hread := (ha.decode_ok_iff Opaque.codec).2 hd
  rw [Stage.next, hread]
  exact congrArg (fun n => Stage.finished (.ok (.adopted n))) hname

/-! ## The whole attempt -/

section

variable {σ : Type} {server : Server (Hosts secretName secret) ns σ} {t : σ}
  {p : Program (Except OperatorError Adoption)}

/-- an attempt at a stage has its request served, and goes on where the answer leads -/
theorem exec_of_runs (server : Server (Hosts secretName secret) ns σ) (t : σ) {stage : Stage} {r : Request}
    (h : Runs c stage p) (hr : stage.request? c = some r) (hns : r.namespaceName = ns) (hnames : r.HasNames)
    (hproper : r.call.Proper) (hstored : Stored (server.objects t)) :
    ∃ a w t' p', Hosts secretName secret (server.objects t) r.call a w (server.objects t') ∧
      Runs c (stage.next c a) p' ∧ (p.exec server.serve t).result = (p'.exec server.serve t').result ∧
      (p.exec server.serve t).server = (p'.exec server.serve t').server := by
  obtain ⟨next, rfl, hnext⟩ := h.exists_send hr (Request.fault?_of_names hnames)
  obtain ⟨w, hserved⟩ := server.lawful t r hns (Request.hasPlainNames_of_names hnames) hproper hstored
  exact ⟨_, w, _, _, hserved, hnext _, rfl, rfl⟩

/-- the attempt ends well, and leaves the described object -/
def Completes (server : Server (Hosts secretName secret) ns σ) (t : σ) (s : Settings)
    (p : Program (Except OperatorError Adoption)) : Prop :=
  ((p.exec server.serve t).result = .ok (.adopted Canonical.defaultName) ∨
    (p.exec server.serve t).result = .ok .alreadyManaged) ∧
  ∃ revision doc, server.objects (p.exec server.serve t).server = only doc ∧ Described s revision doc

/-- an attempt that is over leaves what is stored -/
theorem completes_finished {result : Adoption}
    (hresult : result = .adopted Canonical.defaultName ∨ result = .alreadyManaged) (h : Described s revision doc)
    (hobjs : server.objects t = only doc) (hp : Runs c (.finished (.ok result)) p) : Completes server t s p := by
  obtain rfl := hp.eq_done
  refine ⟨?_, revision, doc, hobjs, h⟩
  rcases hresult with rfl | rfl
  · exact Or.inl rfl
  · exact Or.inr rfl

theorem isName_defaultName : IsName Canonical.defaultName := ⟨by decide, by decide, by decide⟩

section

variable (hns : c.namespaceName = ns) (hnamespace : IsName ns) (hlegacy : s.isLegacy = true)

include hnamespace

/-- a created object is described by the request that addresses it -/
theorem Created.exec_describing (h : Created s ns revision doc) (hobjs : server.objects t = only doc) {stage : Stage}
    (hr : stage.request? c = some (describing s ns revision)) (hp : Runs c stage p) :
    ∃ a t' p' new doc', Runs c (stage.next c a) p' ∧ server.objects t' = only doc' ∧ Described s new doc' ∧
      a.Carries (Cluster.label .legacy doc') ∧
      (p.exec server.serve t).result = (p'.exec server.serve t').result ∧
      (p.exec server.serve t).server = (p'.exec server.serve t').server := by
  have hnames : (describing s ns revision).HasNames :=
    ⟨hnamespace, fun n hn => Option.some.inj hn ▸ isName_defaultName⟩
  obtain ⟨a, w, t', p', hs, hp', hresult, hserver⟩ := exec_of_runs server t hp hr rfl hnames
    (Pipeline.normal_statusPatch _ _) (hobjs ▸ .singleton ⟨revision, h.stands⟩)
  have hserves := hs.serves
  rw [hobjs] at hserves
  obtain ⟨new, doc', -, hobjs', hdescribed, ha⟩ := h.exists_described hserves
  exact ⟨a, t', p', new, doc', hp', hobjs', hdescribed, ha, hresult, hserver⟩

theorem Created.completes_resuming (h : Created s ns revision doc) (hobjs : server.objects t = only doc)
    {pending : LegacyResource} (haddresses : Addresses ns revision pending) (hp : Runs c (.resuming s pending) p) :
    Completes server t s p := by
  have hr : (Stage.resuming s pending).request? c = some (describing s ns revision) :=
    congrArg some (haddresses.statusRequest_eq c)
  obtain ⟨a, t', p', new, doc', hp', hobjs', hdescribed, ha, hresult, hserver⟩ :=
    h.exec_describing hnamespace hobjs hr hp
  rw [hdescribed.next_resuming ha haddresses.name] at hp'
  have hrest := completes_finished (Or.inl rfl) hdescribed hobjs' hp'
  rwa [Completes, hresult, hserver]

include hns

theorem Created.completes_describing (h : Created s ns revision doc) (hobjs : server.objects t = only doc)
    {created : LegacyResource} (hrevision : created.metadata.resourceVersion = some revision)
    (hp : Runs c (.describing s created) p) : Completes server t s p := by
  have haddresses : Addresses ns revision ((s.toResource c.namespaceName).atRevision created.metadata.resourceVersion) :=
    ⟨rfl, congrArg some hns, hrevision⟩
  have hr : (Stage.describing s created).request? c = some (describing s ns revision) :=
    congrArg some (haddresses.statusRequest_eq c)
  obtain ⟨a, t', p', new, doc', hp', hobjs', hdescribed, ha, hresult, hserver⟩ :=
    h.exec_describing hnamespace hobjs hr hp
  rw [hdescribed.next_describing ha] at hp'
  have hrest := completes_finished (Or.inl rfl) hdescribed hobjs' hp'
  rwa [Completes, hresult, hserver]

theorem completes_creating (hobjs : server.objects t = .empty) (hp : Runs c (.creating s) p) :
    Completes server t s p := by
  have hr : (Stage.creating s).request? c = some ⟨ns, .create .legacy (body s ns)⟩ := by rw [← hns]; rfl
  obtain ⟨a, w, t', p', hs, hp', hresult, hserver⟩ := exec_of_runs server t hp hr rfl ⟨hnamespace, nofun⟩
    ⟨_, _, stands_body s ns⟩ (hobjs ▸ fun _ _ hd => absurd hd nofun)
  rw [hobjs] at hs
  obtain ⟨revision, doc, -, hobjs', hcreated, created, hnext, hrevision⟩ := exists_created (c := c) hs
  rw [hnext] at hp'
  have hrest := hcreated.completes_describing hns hnamespace hobjs' hrevision hp'
  rwa [Completes, hresult, hserver]

include hlegacy

/-- the attempt lists what is stored, and goes on from there -/
theorem Extent.completes_listing {pin : Option String} {n : Nat} (h : Extent s ns (server.objects t) pin n)
    (hp : Runs c (.listing s) p) : Completes server t s p := by
  have hr : (Stage.listing s).request? c = some ⟨ns, .list⟩ := by rw [← hns]; rfl
  obtain ⟨a, w, t', p', hs, hp', hresult, hserver⟩ := exec_of_runs server t hp hr rfl ⟨hnamespace, nofun⟩ trivial h.stored
  obtain ⟨-, hsame, -⟩ := hs.serves.list_cases
  have hserves := hs.serves
  rw [Completes, hresult, hserver]
  generalize hobjs : server.objects t = objs at h hserves hsame
  cases h with
  | absent =>
    rw [next_listing hserves] at hp'
    exact completes_creating hns hnamespace hsame hp'
  | created hcreated =>
    obtain ⟨pending, hnext, haddresses⟩ := hcreated.next_listing hserves hns
    rw [hnext] at hp'
    exact hcreated.completes_resuming hnamespace hsame haddresses hp'
  | described hdescribed _ =>
    rw [hdescribed.next_listing hlegacy hserves] at hp'
    exact completes_finished (Or.inr rfl) hdescribed hsame hp'

end

/-- **An attempt without faults completes the adoption**, wherever it stands. -/
theorem Extent.completes {pin : Option String} {n : Nat}
    (h : Extent (.ofSecret sec) ns (server.objects t) pin n) (hsecret : Secret.codec.decode secret = .ok sec)
    (hlegacy : (Settings.ofSecret sec).isLegacy = true) (hns : c.namespaceName = ns)
    (hname : c.secretName = secretName) (hnamespace : IsName ns) (hsecretName : IsName secretName) :
    Completes server t (.ofSecret sec) (attempt c).run := by
  have hr : Stage.readingSecret.request? c = some ⟨ns, .readSecret secretName⟩ := by rw [← hns, ← hname]; rfl
  obtain ⟨a, w, t', p', hs, hp', hresult, hserver⟩ := exec_of_runs server t (runs_attempt c) hr rfl
    ⟨hnamespace, fun n hn => Option.some.inj hn ▸ hsecretName⟩ trivial h.stored
  obtain ⟨-, hsame⟩ := hs.serves.secret_cases
  rw [next_readingSecret hsecret hlegacy (hs.secret rfl)] at hp'
  have hrest := Extent.completes_listing hns hnamespace hlegacy (hsame ▸ h) hp'
  rwa [Completes, hresult, hserver]

end

end MigrationOperator.Adoption
