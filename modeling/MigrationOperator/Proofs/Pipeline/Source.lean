/-
The object that a migration starts from, and how far the migration of it went.

A `Source` is what counts of a stored legacy object: its spec and its status, as they are stored and as they are read. A
migration first notes its status and then replaces the spec, so a stored object stands at one of three extents
(`Source.Holds`). Up to the last one it is listed and loaded as a legacy object, whose migration writes the same status
and the same spec as that of the source; from then on it is a canonical one.
-/
import MigrationOperator.Proofs.Classification
import MigrationOperator.Proofs.Pipeline.Tracking
import MigrationOperator.Proofs.Resource.Note

namespace MigrationOperator.Pipeline

/-- how far the migration of a stored object went -/
inductive Extent where
  | untouched
  /-- the status is written -/
  | noted
  /-- and the spec is replaced -/
  | migrated
deriving DecidableEq

/-- the extent after the status was written -/
def Extent.note : Extent → Extent
  | .untouched | .noted => .noted
  | .migrated => .migrated

theorem Extent.note_ne_untouched (x : Extent) : x.note ≠ .untouched := by
  cases x <;> exact nofun

/-- spec and status of an installed legacy object -/
structure Source where
  name : String
  /-- the spec as it is stored -/
  spec : Json
  /-- the members of the status as they are stored -/
  members : List (String × Json)
  old : Legacy.Spec
  observed : Status
  reads : Legacy.Spec.codec.decode spec = .ok old
  refuses : ∀ x, Canonical.Spec.codec.decode spec ≠ .ok x
  normal : (Json.obj members).Normal
  observes : Status.codec.decode (.obj members) = .ok observed
  installed : observed.phase = .installed

namespace Source

/-- the canonical spec that the legacy one becomes -/
def target (o : Source) : Canonical.Spec := Migration.spec o.old { forceMigration := true }

/-- the status that a migration writes -/
def note (o : Source) : Json := Migration.note (some o.observed)

def specAt (o : Source) : Extent → Json
  | .migrated => Canonical.Spec.codec.write o.target
  | .untouched | .noted => o.spec

def statusAt (o : Source) : Extent → Json
  | .untouched => .obj o.members
  | .noted | .migrated => Json.mergePatch o.note (.obj o.members)

/-- a stored object at an extent -/
structure Holds (o : Source) (x : Extent) (doc : Json) : Prop where
  stands : ∃ revision, doc.Stands o.name (some revision)
  rereads : doc.Rereads
  spec : doc.get? "spec" = some (o.specAt x)
  status : doc.get? "status" = some (o.statusAt x)

variable {o : Source} {x : Extent} {doc : Json}

/-! ## Status -/

theorem exists_statusAt_eq (o : Source) (x : Extent) : ∃ ms, o.statusAt x = .obj ms ∧ (Json.obj ms).Normal := by
  cases x with
  | untouched => exact ⟨o.members, rfl, o.normal⟩
  | noted => exact Migration.exists_merged_eq _ o.normal
  | migrated => exact Migration.exists_merged_eq _ o.normal

/-- noting the status again changes nothing -/
theorem merge_statusAt (o : Source) (x : Extent) : Json.mergePatch o.note (o.statusAt x) = o.statusAt .noted := by
  cases x with
  | untouched => rfl
  | noted => exact Migration.merged_idem _ o.normal
  | migrated => exact Migration.merged_idem _ o.normal

theorem decode_statusAt (o : Source) (x : Extent) :
    ∃ s, Status.codec.decode (o.statusAt x) = .ok s ∧ s.phase = .installed ∧ s.version = o.observed.version := by
  cases x with
  | untouched => exact ⟨o.observed, o.observes, o.installed, rfl⟩
  | noted => exact ⟨_, Migration.decode_merged o.normal o.observes, rfl, rfl⟩
  | migrated => exact ⟨_, Migration.decode_merged o.normal o.observes, rfl, rfl⟩

/-- what an optional status takes from an object -/
theorem takes_status_iff {ms : List (String × Json)} {s : Option Status} :
    (Column.optional "status" Status.codec).Takes (some (.obj ms)) s ↔
      ∃ y, s = some y ∧ Status.codec.decode (.obj ms) = .ok y := by
  have hread : (Column.optional "status" Status.codec).Takes (some (.obj ms)) s ↔
      (Status.codec.decode (.obj ms)).map some = .ok s := Iff.rfl
  rw [hread]
  cases Status.codec.decode (.obj ms) <;> simp [Except.map, eq_comm]

theorem takes_statusAt {s : Option Status} :
    (Column.optional "status" Status.codec).Takes (some (o.statusAt x)) s ↔
      ∃ y, s = some y ∧ Status.codec.decode (o.statusAt x) = .ok y := by
  obtain ⟨ms, hms, -⟩ := o.exists_statusAt_eq x
  rw [hms]
  exact takes_status_iff

/-- the stored phase is the one of an installed object -/
theorem Holds.phase (h : o.Holds x doc) : doc.at? ["status", "phase"] = some (.str "Installed") := by
  obtain ⟨ms, hms, hnormal⟩ := o.exists_statusAt_eq x
  obtain ⟨s, hs, hphase, -⟩ := o.decode_statusAt x
  rw [hms] at hs
  rw [Json.at?_pair (h.status.trans (congrArg some hms))]
  exact Migration.find?_phase_of_decode hnormal.1 hs hphase

/-! ## Reading a stored object -/

/-- a legacy object whose migration is that of the source -/
structure Agrees (o : Source) (l : LegacyResource) : Prop where
  spec : l.spec = o.old
  note : Migration.note l.status = o.note

/-- an object that is loaded as a legacy one is not migrated yet, and its migration is that of the source -/
theorem Holds.of_decode_legacy (h : o.Holds x doc) {l : LegacyResource} (hl : Legacy.kind.codec.decode doc = .ok l) :
    x ≠ .migrated ∧ l.phase = .installed ∧ o.Agrees l := by
  obtain ⟨revision, hstands⟩ := h.stands
  have hread := hstands.decode_iff.1 hl
  have hspec := hread.spec
  have hstatus := hread.status
  rw [h.spec] at hspec
  rw [h.status, takes_statusAt] at hstatus
  obtain ⟨s, hs, hdecode⟩ := hstatus
  obtain ⟨s', hdecode', hphase, hversion⟩ := o.decode_statusAt x
  obtain rfl := Except.ok.inj (hdecode.symm.trans hdecode')
  have hnote : Migration.note l.status = o.note := Migration.note_congr (by rw [hs]; exact hversion)
  have hinstalled : l.phase = .installed := by
    rw [Resource.phase, hs]
    exact hphase
  cases x with
  | migrated => exact absurd hspec (Legacy.decode_canonical_ne _ _)
  | untouched => exact ⟨nofun, hinstalled, Except.ok.inj (Eq.trans hspec.symm o.reads), hnote⟩
  | noted => exact ⟨nofun, hinstalled, Except.ok.inj (Eq.trans hspec.symm o.reads), hnote⟩

/-- an object that is loaded as a canonical one is migrated -/
theorem Holds.of_decode_canonical (h : o.Holds x doc) {y : CanonicalResource}
    (hy : Canonical.kind.codec.decode doc = .ok y) : x = .migrated := by
  obtain ⟨revision, hstands⟩ := h.stands
  have hspec := (hstands.decode_iff.1 hy).spec
  rw [h.spec] at hspec
  cases x with
  | migrated => rfl
  | untouched => exact absurd hspec (o.refuses _)
  | noted => exact absurd hspec (o.refuses _)

/-- an object with a spec that reads is loaded -/
theorem Holds.exists_decode (h : o.Holds x doc) {σ : Type} {k : Kind σ} {s : σ}
    (hs : k.spec.decode (o.specAt x) = .ok s) : ∃ y, k.codec.decode doc = .ok y := by
  obtain ⟨revision, hstands⟩ := h.stands
  obtain ⟨md, m, hmd, hm, -⟩ := hstands.metadata
  obtain ⟨status, hstatus, -⟩ := o.decode_statusAt x
  refine ⟨⟨m, s, some status⟩, hstands.decode_iff.2 ⟨?_, ?_, ?_⟩⟩
  · rw [hmd]
    exact hm
  · rw [h.spec]
    exact hs
  · rw [h.status]
    exact takes_statusAt.2 ⟨status, rfl, hstatus⟩

theorem Holds.exists_decode_legacy (h : o.Holds x doc) (hx : x ≠ .migrated) :
    ∃ l, Legacy.kind.codec.decode doc = .ok l := by
  have hspec : Legacy.Spec.codec.decode (o.specAt x) = .ok o.old := by
    cases x with
    | migrated => exact absurd rfl hx
    | untouched => exact o.reads
    | noted => exact o.reads
  exact h.exists_decode (k := Legacy.kind) hspec

theorem Holds.exists_decode_canonical (h : o.Holds .migrated doc) : ∃ y, Canonical.kind.codec.decode doc = .ok y :=
  h.exists_decode (k := Canonical.kind) (Canonical.Spec.lawful_codec o.target)

/-- a stored object is listed as legacy until it is migrated, and as canonical from then on -/
theorem Holds.exists_classify (h : o.Holds x doc) :
    ∃ d k, Opaque.codec.decode (Cluster.label .canonical doc) = .ok d ∧ classify d = .ok k ∧ k.name = o.name ∧
      (k.version = .canonical ↔ x = .migrated) := by
  obtain ⟨revision, hstands⟩ := h.stands
  have hrereads : (Cluster.label .canonical doc).Rereads :=
    h.rereads.congr (hstands.get?_label .canonical (by decide))
  obtain ⟨d, hd, hwrite⟩ := (hstands.label .canonical).exists_decode_write hrereads
  by_cases hx : x = .migrated
  · subst hx
    obtain ⟨y, hy⟩ := h.exists_decode_canonical
    obtain ⟨z, hz, hname⟩ := (hwrite Canonical.kind).2 y ((hstands.decode_label_iff _).2 hy)
    exact ⟨d, .canonical z, hd, by rw [classify, classifyJson, hz], hname, by simp [Classified.version]⟩
  · obtain ⟨y, hy⟩ := h.exists_decode_legacy hx
    obtain ⟨z, hz, hname⟩ := (hwrite Legacy.kind).2 y ((hstands.decode_label_iff _).2 hy)
    refine ⟨d, .legacy z, hd, ?_, hname, by simp [Classified.version, hx]⟩
    -- the canonical schema, which is tried first, refuses
    cases hc : Canonical.kind.codec.decode d.write with
    | ok c =>
      obtain ⟨m, hm⟩ := ((hwrite Canonical.kind).1 c hc).2
      exact absurd (h.of_decode_canonical ((hstands.decode_label_iff _).1 hm)) hx
    | error e => rw [classify, classifyJson, hc, hz]

/-! ## Writing it -/

section

variable {objs : StringMap Json} {c : Context} {l : LegacyResource} {a : Answer} {w : Option Write}
  {revision : String} {body doc' : Json}

/-- a status patch that writes what a migration notes -/
theorem Holds.patched (h : o.Holds x doc) (hp : Patched objs o.name revision body doc doc')
    (hbody : body.get? "status" = some o.note) : o.Holds x.note doc' := by
  refine ⟨⟨revision, hp.stands⟩, hp.rereads h.rereads, ?_, ?_⟩
  · rw [hp.spec, h.spec]
    cases x <;> rfl
  · rw [hp.status, hbody, h.status]
    show some (Json.mergePatch o.note (o.statusAt x)) = _
    rw [merge_statusAt]
    cases x <;> rfl

/-- a replacement by the canonical spec, once the status was written -/
theorem Holds.replaced (h : o.Holds x doc) (hx : x ≠ .untouched) (hr : Replaced objs o.name revision body doc doc')
    (hspec : body.get? "spec" = some (Canonical.Spec.codec.write o.target)) (hbody : body.Rereads) :
    o.Holds .migrated doc' := by
  refine ⟨⟨revision, hr.stands⟩, hr.rereads hbody, hr.spec.trans hspec, ?_⟩
  rw [hr.status, h.status]
  cases x with
  | untouched => exact absurd rfl hx
  | noted => rfl
  | migrated => rfl

theorem Agrees.get?_status (h : o.Agrees l) (revision : Option String) :
    (Writing.statusPatch revision (Migration.status l.status none)).get? "status" = some o.note :=
  (get?_status_statusPatch _ _).trans (congrArg some h.note)

theorem Agrees.get?_spec (h : o.Agrees l) (revision : Option String) :
    (replacement c l revision).get? "spec" = some (Canonical.Spec.codec.write o.target) := by
  have htarget : (successor c l).spec = o.target := by
    show Migration.spec l.spec { forceMigration := true } = o.target
    rw [h.spec]
    rfl
  rw [get?_spec_replacement, htarget]

/-- a status patch is served with the status that a migration notes, or refused as it is stale -/
theorem Holds.serves_patch (h : o.Holds x doc) (hl : o.Agrees l)
    (hs : Serves (.singleton o.name doc) (patchRequest c l).call a w objs) :
    (objs = .singleton o.name doc ∧ a.Failed ∧ ((successor c l).name = o.name → ∀ revision,
        doc.Stands o.name (some revision) → l.metadata.resourceVersion ≠ some revision)) ∨
      ∃ doc' revision, w = some ⟨o.name, revision⟩ ∧ objs = .singleton o.name doc' ∧ o.Holds x.note doc' ∧
        doc'.Stands o.name (some revision) ∧ a.Carries (Cluster.label .canonical doc') := by
  rcases hs.patch_cases with ⟨found, doc', revision, hw, hobjects, hpatched, ha⟩ | ⟨-, hsame, hfailed, hstale⟩
  · obtain ⟨hname, rfl⟩ := hpatched.eq_of_singleton
    rw [hname] at hw hobjects hpatched
    exact Or.inr ⟨doc', revision, hw, hobjects.trans (StringMap.insert_singleton _ _ _),
      h.patched hpatched (hl.get?_status _), hpatched.stands, ha⟩
  · refine Or.inl ⟨hsame, hfailed, fun hname revision hstands hrevision => ?_⟩
    have hfalse := hstale doc (by rw [hname, StringMap.get?_singleton_self])
    rw [hstands.isCurrent ((revisionOf_statusPatch _ _).trans hrevision)] at hfalse
    exact absurd hfalse nofun

/-- once the status was written, a replacement is served with the migrated spec, or refused as it is stale -/
theorem Holds.serves_replace {pin : Option String} (h : o.Holds x doc) (hl : o.Agrees l) (hx : x ≠ .untouched)
    (hs : Serves (.singleton o.name doc) (replaceRequest c l pin).call a w objs) :
    (objs = .singleton o.name doc ∧ ((successor c l).name = o.name → ∀ revision,
        doc.Stands o.name (some revision) → pin ≠ some revision)) ∨
      ∃ doc' revision, w = some ⟨o.name, revision⟩ ∧ objs = .singleton o.name doc' ∧ o.Holds .migrated doc' ∧
        doc'.Stands o.name (some revision) ∧ a.Carries (Cluster.label .canonical doc') := by
  rcases hs.replace_cases with ⟨found, doc', revision, hw, hobjects, hreplaced, ha⟩ | ⟨-, hsame, -, hstale⟩
  · obtain ⟨hname, rfl⟩ := hreplaced.eq_of_singleton
    rw [hname] at hw hobjects hreplaced
    exact Or.inr ⟨doc', revision, hw, hobjects.trans (StringMap.insert_singleton _ _ _),
      h.replaced hx hreplaced (hl.get?_spec pin) (rereads_replacement c l pin), hreplaced.stands, ha⟩
  · refine Or.inl ⟨hsame, fun hname revision hstands hrevision => ?_⟩
    have hfalse := hstale doc (by rw [hname, StringMap.get?_singleton_self])
    rw [hstands.isCurrent ((stands_replacement c l pin).revisionOf_eq.trans hrevision)] at hfalse
    exact absurd hfalse nofun

end

/-! ## Where a migration starts -/

/-- what is classified as legacy is refused by the canonical schema -/
theorem decode_of_classify {d : Opaque} {l : LegacyResource} (h : classify d = .ok (.legacy l)) :
    Legacy.kind.codec.decode d.write = .ok l ∧ ∀ y, Canonical.kind.codec.decode d.write ≠ .ok y := by
  rw [classify, classifyJson] at h
  cases hc : Canonical.kind.codec.decode d.write with
  | ok y =>
    rw [hc] at h
    cases h
  | error e =>
    cases hl : Legacy.kind.codec.decode d.write with
    | error e' =>
      rw [hc, hl] at h
      cases h
    | ok y =>
      rw [hc, hl] at h
      obtain rfl : y = l := Classified.legacy.inj (Except.ok.inj h)
      exact ⟨rfl, fun _ hy => by cases hy⟩

/-- an object that is classified reads its metadata again -/
theorem rereads_of_decode_write {name : String} {revision : Option String} {d : Opaque} {l : LegacyResource}
    (hstands : doc.Stands name revision) (hd : Opaque.codec.decode doc = .ok d)
    (hl : Legacy.kind.codec.decode d.write = .ok l) : doc.Rereads := by
  intro md m hmd hm
  obtain ⟨ms, rfl, hms⟩ := hstands.exists_obj
  obtain ⟨d', hd', -, ws, hws, hordered, hmetadata, -⟩ := Opaque.exists_decode hms hmd hm
  obtain rfl := Except.ok.inj (hd.symm.trans hd')
  rw [hws] at hl
  have hread := ((Kind.decode_iff hordered).1 hl).metadata
  rw [hmetadata] at hread
  exact ⟨l.metadata, hread⟩

/-- an object that is classified as legacy is stored as one, with a spec that is no canonical one -/
theorem decode_of_classify_stored {name : String} {revision : Option String} {d : Opaque} {l : LegacyResource}
    (hstands : doc.Stands name revision) (hd : Opaque.codec.decode doc = .ok d)
    (hclass : classify d = .ok (.legacy l)) :
    (∃ m, Legacy.kind.codec.decode doc = .ok { l with metadata := m }) ∧ doc.Rereads ∧
      ∀ j y, doc.get? "spec" = some j → Canonical.Spec.codec.decode j ≠ .ok y := by
  obtain ⟨hlegacy, hcanonical⟩ := decode_of_classify hclass
  have hrereads := rereads_of_decode_write hstands hd hlegacy
  obtain ⟨d', hd', hwrite⟩ := hstands.exists_decode_write hrereads
  obtain rfl := Except.ok.inj (hd.symm.trans hd')
  obtain ⟨m, hl⟩ := ((hwrite Legacy.kind).1 l hlegacy).2
  refine ⟨⟨m, hl⟩, hrereads, fun j y hj hy => ?_⟩
  -- with a spec that reads as canonical, too, the object would be classified as canonical
  have hread : Canonical.kind.codec.decode doc = .ok ⟨m, y, l.status⟩ := by
    have hparts := hstands.decode_iff.1 hl
    refine hstands.decode_iff.2 ⟨hparts.metadata, ?_, hparts.status⟩
    rw [hj]
    exact hy
  obtain ⟨z, hz, -⟩ := (hwrite Canonical.kind).2 _ hread
  exact hcanonical z hz

/-- a stored object with a legacy spec as it is written is classified as legacy -/
theorem exists_classify_of_written {name : String} {revision : Option String} {old : Legacy.Spec} {status : Option Status}
    (hstands : doc.Stands name revision) (hrereads : doc.Rereads)
    (hspec : doc.get? "spec" = some (Legacy.Spec.codec.write old))
    (hstatus : (Column.optional "status" Status.codec).Takes (doc.get? "status") status) :
    ∃ d l, Opaque.codec.decode doc = .ok d ∧ classify d = .ok (.legacy l) ∧ l.name = name ∧ l.spec = old ∧
      l.status = status := by
  obtain ⟨md, m, hmd, hm, -⟩ := hstands.metadata
  have hread : Legacy.kind.codec.decode doc = .ok ⟨m, old, status⟩ := by
    refine hstands.decode_iff.2 ⟨?_, ?_, hstatus⟩
    · rw [hmd]
      exact hm
    · rw [hspec]
      exact Legacy.Spec.lawful_codec old
  obtain ⟨d, hd, hwrite⟩ := hstands.exists_decode_write hrereads
  obtain ⟨l, hl, hname⟩ := (hwrite Legacy.kind).2 _ hread
  obtain ⟨-, m', hl'⟩ := (hwrite Legacy.kind).1 l hl
  have heq : (⟨m, old, status⟩ : LegacyResource) = { l with metadata := m' } := Except.ok.inj (hread.symm.trans hl')
  refine ⟨d, l, hd, ?_, hname, (congrArg Resource.spec heq).symm, (congrArg Resource.status heq).symm⟩
  -- the canonical schema is tried first, and refuses the spec
  cases hc : Canonical.kind.codec.decode d.write with
  | ok c =>
    obtain ⟨-, m'', hread'⟩ := (hwrite Canonical.kind).1 c hc
    obtain ⟨j, hj, hdecode⟩ := hstands.exists_spec hread'
    obtain rfl := Option.some.inj (hspec.symm.trans hj)
    exact absurd hdecode (Canonical.decode_legacy_ne old _)
  | error e => rw [classify, classifyJson, hc, hl]

/-- a stored object that is classified as an installed legacy one, with a status that is an object, is a source -/
theorem exists_source {name revision : String} {d : Opaque} {l : LegacyResource} {ms : List (String × Json)}
    (hstands : doc.Stands name (some revision)) (hd : Opaque.codec.decode doc = .ok d)
    (hclass : classify d = .ok (.legacy l)) (hstatus : doc.get? "status" = some (.obj ms))
    (hphase : l.phase = .installed) :
    ∃ o : Source, o.name = name ∧ o.old = l.spec ∧ l.status = some o.observed ∧ o.members = ms ∧
      doc.get? "spec" = some o.spec ∧ o.Holds .untouched doc := by
  obtain ⟨⟨m, hl⟩, hrereads, hrefuses⟩ := decode_of_classify_stored hstands hd hclass
  obtain ⟨j, hj, hold⟩ := hstands.exists_spec hl
  have hread := (hstands.decode_iff.1 hl).status
  rw [hstatus] at hread
  obtain ⟨s, hobserved, hs⟩ := takes_status_iff.1 hread
  have hinstalled : s.phase = .installed := by
    rw [Resource.phase, show l.status = some s from hobserved] at hphase
    exact hphase
  exact ⟨⟨name, j, ms, l.spec, s, hold, fun y => hrefuses j y hj, hstands.normal.get? hstatus, hs, hinstalled⟩, rfl, rfl,
    hobserved, rfl, hj, ⟨revision, hstands⟩, hrereads, hj, hstatus⟩

end Source

end MigrationOperator.Pipeline
