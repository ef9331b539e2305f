/-
The object that an adoption leaves, and what an attempt makes of it.

`body` is what is created. A store that takes it over holds a `Created` object, and a `Described` one once the status was
merged into it. An attempt that lists a created object resumes it at the revision it stands at (`Created.exists_pending`),
and one that lists a described object finds nothing to do (`Described.exists_managed`).
-/
import MigrationOperator.Proofs.Adoption.Stage
import MigrationOperator.Proofs.Pipeline.Tracking

namespace MigrationOperator.Adoption

variable {s : Settings} {ns revision : String} {doc : Json}

/-! ## What is written -/

/-- the object that is created for an installation -/
def body (s : Settings) (ns : String) : Json := Legacy.kind.write (s.toResource ns)

/-- the metadata that it is created with -/
def initialMetadata (ns : String) : Metadata := { name := some Canonical.defaultName, namespaceName := some ns }

theorem get?_metadata_body (s : Settings) (ns : String) :
    (body s ns).get? "metadata" = some (Metadata.codec.write (initialMetadata ns)) := by
  rw [body, Json.get?, Entries.find?_eq_head?, (Legacy.kind.shows_write _).metadata]
  rfl

theorem get?_spec_body (s : Settings) (ns : String) :
    (body s ns).get? "spec" = some (Legacy.Spec.codec.write s.spec) := by
  rw [body, Json.get?, Entries.find?_eq_head?, (Legacy.kind.shows_write _).spec]
  rfl

theorem stands_body (s : Settings) (ns : String) : (body s ns).Stands Canonical.defaultName none := by
  have hkeeps := Metadata.codec_keeps_identity (some Canonical.defaultName) (some ns) none
  exact ⟨Legacy.kind.normal_write (Metadata.normal_write_identity _ _ _), _, _, get?_metadata_body s ns, hkeeps, rfl,
    rfl⟩

/-- the metadata of what is created is read back -/
theorem rereads_body (s : Settings) (ns : String) : (body s ns).Rereads := by
  intro md m hmd hm
  have hkeeps := Metadata.codec_keeps_identity (some Canonical.defaultName) (some ns) none
  obtain rfl := Option.some.inj ((get?_metadata_body s ns).symm.trans hmd)
  obtain rfl := Except.ok.inj (Eq.trans hkeeps.symm hm)
  exact ⟨_, hkeeps⟩

theorem namespaceName_body (s : Settings) (ns : String) :
    (body s ns).at? ["metadata", "namespace"] = some (.str ns) := by
  rw [Json.at?_pair (get?_metadata_body s ns), Entries.find?_ofList]
  rfl

/-- what is written of the status of an installation -/
theorem find?_status (s : Settings) (k : String) :
    Entries.find? k (Status.codec.write s.status).members =
      if k = "phase" then some (.str "UpgradingLegacy")
      else if k = "reason" then some (.str "NotYetCreated")
      else if k = "version" ∧ s.text .version ≠ "" then some (.str (s.text .version))
      else none := by
  have hmembers : (Status.codec.write s.status).members =
      Entries.ofList ([("phase", .str "UpgradingLegacy"), ("reason", .str "NotYetCreated")] ++
        if (s.text .version).isEmpty then [] else [("version", .str (s.text .version))]) := rfl
  rw [hmembers, Entries.find?_ofList]
  by_cases hv : s.text .version = ""
  · simp only [hv, Entries.under_append, Entries.under_cons]
    split_ifs <;> simp_all
  · simp only [String.isEmpty_iff, hv, if_false, Entries.under_append, Entries.under_cons]
    split_ifs <;> simp_all

/-- settings of an installation have a version -/
theorem exists_version (h : s.isLegacy = true) : ∃ v, s.value? .version = some v ∧ v.isEmpty = false := by
  have hmarker := List.all_eq_true.1 h .version (by decide)
  obtain ⟨v, hv⟩ := Option.isSome_iff_exists.1 hmarker
  refine ⟨v, hv, ?_⟩
  rw [Settings.value?, Settings.get?, Option.filter_eq_some_iff] at hv
  simpa using hv.2

/-- the status that is written of an installation -/
theorem write_status {v : String} (hv : s.value? .version = some v) (hne : v.isEmpty = false) :
    Status.codec.write s.status =
      .obj [("phase", .str "UpgradingLegacy"), ("reason", .str "NotYetCreated"), ("version", .str v)] := by
  have hstatus : s.status = { phase := .upgradingLegacy, reason := .notYetCreated, version := v } := by
    rw [Settings.status, Settings.text, hv]
    rfl
  rw [hstatus]
  show Json.object ([("phase", .str "UpgradingLegacy"), ("reason", .str "NotYetCreated")] ++
    if v.isEmpty then [] else [("version", .str v)]) = _
  simp +decide only [hne, Json.object, Entries.ofList, Entries.insert, List.foldl, List.cons_append, List.nil_append,
    if_false]

theorem normal_status (s : Settings) : (Status.codec.write s.status).Normal := Codec.Tidy.normal_write (c := Status.codec) _

/-- it is what stands after it is merged into an object without a status -/
theorem merge_status (s : Settings) :
    Json.mergePatch (Status.codec.write s.status) .null = Status.codec.write s.status := by
  have hordered := (normal_status s).members.1
  have hmerged := Json.normal_mergePatch (normal_status s) (show Json.null.Normal from trivial)
  change Json.mergePatch (.obj (Status.codec.write s.status).members) .null = .obj (Status.codec.write s.status).members
  change (Json.mergePatch (.obj (Status.codec.write s.status).members) .null).Normal at hmerged
  rw [Json.mergePatch] at hmerged ⊢
  refine congrArg Json.obj (Entries.ext_of_ordered hmerged.1 hordered fun k => ?_)
  rw [Json.find?_mergeMembers hordered, find?_status]
  split_ifs <;> rfl

theorem decode_status (s : Settings) : Status.codec.decode (Status.codec.write s.status) = .ok s.status :=
  Status.codec_keeps ⟨rfl, rfl⟩

/-! ## What is stored -/

/-- an object as it was created, at a revision -/
structure Created (s : Settings) (ns revision : String) (doc : Json) : Prop where
  stands : doc.Stands Canonical.defaultName (some revision)
  rereads : doc.Rereads
  namespaceName : doc.at? ["metadata", "namespace"] = some (.str ns)
  spec : doc.get? "spec" = some (Legacy.Spec.codec.write s.spec)
  status : doc.get? "status" = none

/-- and with the status merged into it -/
structure Described (s : Settings) (revision : String) (doc : Json) : Prop where
  stands : doc.Stands Canonical.defaultName (some revision)
  rereads : doc.Rereads
  spec : doc.get? "spec" = some (Legacy.Spec.codec.write s.spec)
  status : doc.get? "status" = some (Status.codec.write s.status)

/-- a resource that the status is written of, at a revision -/
structure Addresses (ns revision : String) (x : LegacyResource) : Prop where
  name : x.name = Canonical.defaultName
  namespaceName : x.metadata.namespaceName = some ns
  revision : x.metadata.resourceVersion = some revision

/-- the request that describes an object -/
def describing (s : Settings) (ns revision : String) : Request :=
  ⟨ns, .patchStatus .legacy Canonical.defaultName (Writing.statusPatch (some revision) s.status)⟩

theorem Addresses.statusRequest_eq {x : LegacyResource} (h : Addresses ns revision x) (c : Context) :
    statusRequest c x s.status = describing s ns revision := by
  rw [statusRequest, h.name, h.namespaceName, h.revision]
  rfl

/-- an object with the metadata, the spec and the status of a resource decodes as it -/
theorem decode_of_get? {σ : Type} {k : Kind σ} {name : String} {m : Metadata} {x : σ} {status : Option Status}
    {md j : Json} (hstands : doc.Stands name (some revision)) (hmd : doc.get? "metadata" = some md)
    (hm : Metadata.codec.decode md = .ok m) (hj : doc.get? "spec" = some j) (hx : k.spec.decode j = .ok x)
    (hstatus : (Column.optional "status" Status.codec).Takes (doc.get? "status") status) :
    k.codec.decode doc = .ok ⟨m, x, status⟩ := by
  refine hstands.decode_iff.2 ⟨?_, ?_, hstatus⟩
  · rw [hmd]
    exact hm
  · rw [hj]
    exact hx

theorem Created.decode_eq (h : Created s ns revision doc) {md : Json} {m : Metadata}
    (hmd : doc.get? "metadata" = some md) (hm : Metadata.codec.decode md = .ok m) :
    Legacy.kind.codec.decode doc = .ok ⟨m, s.spec, none⟩ := by
  refine decode_of_get? h.stands hmd hm h.spec (Legacy.Spec.lawful_codec s.spec) ?_
  rw [h.status]
  rfl

theorem Created.exists_decode (h : Created s ns revision doc) :
    ∃ y, Legacy.kind.codec.decode doc = .ok y ∧ y.metadata.resourceVersion = some revision := by
  obtain ⟨md, m, hmd, hm, -, hrevision⟩ := h.stands.metadata
  exact ⟨_, h.decode_eq hmd hm, hrevision⟩

theorem Described.exists_decode (h : Described s revision doc) : ∃ y, Legacy.kind.codec.decode doc = .ok y := by
  obtain ⟨md, m, hmd, hm, -⟩ := h.stands.metadata
  have hstatus : (Column.optional "status" Status.codec).Takes (doc.get? "status") (some s.status) := by
    rw [h.status]
    exact Codec.nullable_keeps (decode_status s) nofun
  exact ⟨_, decode_of_get? h.stands hmd hm h.spec (Legacy.Spec.lawful_codec s.spec) hstatus⟩

/-! ## What is listed -/

/-- an object is listed with its metadata and its status as they are stored -/
theorem exists_listed {name : String} (h : doc.Stands name (some revision)) :
    ∃ d m, Opaque.codec.decode (Cluster.label .canonical doc) = .ok d ∧ d.name = name ∧
      d.get? "status" = doc.get? "status" ∧ (∃ md, doc.get? "metadata" = some md ∧ Metadata.codec.decode md = .ok m) ∧
      ∀ m', Metadata.codec.decode (Metadata.codec.write m) = .ok m' → ∀ {σ : Type} (k : Kind σ) (x : Resource σ),
        k.codec.decode d.write = .ok x ↔ x.metadata = m' ∧ k.codec.decode doc = .ok { x with metadata := m } := by
  have hlabel := h.label .canonical
  have hget : ∀ k, k ≠ "apiVersion" → (Cluster.label .canonical doc).get? k = doc.get? k :=
    fun k hk => h.get?_label .canonical hk
  obtain ⟨d, hd, hname, hstatus⟩ := hlabel.exists_decode
  obtain ⟨md, m, hmd, hm, -⟩ := hlabel.metadata
  obtain ⟨ms, hobj, hms⟩ := hlabel.exists_obj
  have hfind : ∀ k, Entries.find? k ms = (Cluster.label .canonical doc).get? k := fun k => by rw [hobj]; rfl
  refine ⟨d, m, hd, hname, hstatus.trans (hget _ (by decide)), ⟨md, (hget _ (by decide)).symm.trans hmd, hm⟩, ?_⟩
  intro m' hm' σ k x
  obtain ⟨d', hd', -, hiff⟩ := Opaque.exists_decode_write_iff hms ((hfind _).trans hmd) hm hm' fun n _ v hv _ =>
    hlabel.normal.get? ((hfind _).symm.trans hv)
  rw [hobj] at hd
  obtain rfl := Except.ok.inj (hd.symm.trans hd')
  rw [hiff k x, ← hobj, h.decode_label_iff]

/-- what its metadata is read back as still names it, its namespace and its revision -/
theorem Created.addresses (h : Created s ns revision doc) {md : Json} {m m' : Metadata}
    (hmd : doc.get? "metadata" = some md) (hm : Metadata.codec.decode md = .ok m)
    (hm' : Metadata.codec.decode (Metadata.codec.write m) = .ok m') (status : Option Status) :
    Addresses ns revision ⟨m', s.spec, status⟩ := by
  obtain ⟨hidentity, hrevision⟩ := Metadata.identity_of_decode_write hm'
  obtain ⟨hname, hmrevision⟩ := h.stands.identity_of_decode (h.decode_eq hmd hm)
  obtain ⟨ms, rfl⟩ := Metadata.exists_obj_of_decode hm
  have hnamespace := Metadata.namespaceName_of_decode (h.stands.normal.get? hmd).1 hm
  have hat := h.namespaceName
  rw [Json.at?_pair hmd] at hat
  rw [hat] at hnamespace
  refine ⟨?_, ?_, hrevision.trans hmrevision⟩
  · show (m'.name.or m'.generateName).getD "" = _
    rw [hidentity, hname]
    rfl
  · exact (Metadata.namespaceName_of_decode_write hm').trans hnamespace.symm

/-- **A created object is resumed.** Whatever its other metadata, it is recognized as unfinished, and its status is to be
written at the revision it stands at. -/
theorem Created.exists_pending (h : Created s ns revision doc) :
    ∃ d pending, Opaque.codec.decode (Cluster.label .canonical doc) = .ok d ∧
      unfinished? [d] (s.toResource ns) = some pending ∧ Addresses ns revision pending := by
  obtain ⟨d, m, hd, hname, hstatus, ⟨md, hmd, hm⟩, hwrite⟩ := exists_listed h.stands
  obtain ⟨m', hm'⟩ := h.rereads md m hmd hm
  have hphase : statedPhase d = none := by
    rw [statedPhase, hstatus, h.status]
    rfl
  have hfound : Legacy.kind.codec.decode d.write = .ok ⟨m', s.spec, none⟩ :=
    (hwrite m' hm' Legacy.kind _).2 ⟨rfl, h.decode_eq hmd hm⟩
  exact ⟨d, ⟨m', s.spec, some s.status⟩, hd, unfinished?_of_decode hname hphase hfound rfl, h.addresses hmd hm hm' _⟩

/-- **A described object is left alone.** It states a phase, so it is not taken for an unfinished one. -/
theorem Described.exists_managed (h : Described s revision doc) (hs : s.isLegacy = true) (expected : LegacyResource) :
    ∃ d, Opaque.codec.decode (Cluster.label .canonical doc) = .ok d ∧ unfinished? [d] expected = none := by
  obtain ⟨d, m, hd, -, hstatus, -⟩ := exists_listed h.stands
  obtain ⟨v, hv, hne⟩ := exists_version hs
  have hphase : statedPhase d = some "UpgradingLegacy" := by
    rw [statedPhase, hstatus, h.status, write_status hv hne]
    rfl
  refine ⟨d, hd, ?_⟩
  rw [unfinished?, if_pos (Or.inr (by rw [hphase]; rfl))]

/-- what a status write of it answers is read back under its name -/
theorem Described.exists_readBack (h : Described s revision doc) (v : SchemaVersion) :
    ∃ d y, Opaque.codec.decode (Cluster.label v doc) = .ok d ∧ Legacy.kind.codec.decode d.write = .ok y ∧
      y.name = Canonical.defaultName := by
  have hrereads : (Cluster.label v doc).Rereads := h.rereads.congr (h.stands.get?_label v (by decide))
  obtain ⟨d, hd, hwrite⟩ := (h.stands.label v).exists_decode_write hrereads
  obtain ⟨x, hx⟩ := h.exists_decode
  obtain ⟨y, hy, hname⟩ := (hwrite Legacy.kind).2 x ((h.stands.decode_label_iff v).2 hx)
  exact ⟨d, y, hd, hy, hname⟩

end MigrationOperator.Adoption
