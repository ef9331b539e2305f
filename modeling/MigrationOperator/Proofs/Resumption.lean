/-
Which objects an adoption resumes.

An attempt that lists one object takes it for the unfinished one by its name, by the phase that stands in its document and
by its spec, read as a legacy one. The phase that a document states is the one that is read of it, unless its status is
given as a list (`phase_of_takes`), so the two ways of looking at a status agree on every object.

Results:
- `resumed_is_unfinished`: what is resumed stands alone, has the name and the spec that the settings describe, and no
  phase. The schema that it is classified under is not looked at: it is the legacy one, or the canonical one for a document
  that both accept, but never is it a document that a canonical resource was written as.
- `half_finished_is_resumed`: every object with the written spec and no phase is resumed, whatever else the server added,
  with its own metadata and with the status that the settings describe.
Witness: `exists_resumed_unclassified`, a document with nothing but a hostname, which is canonical, and one whose status is
the list of an installed object. Both are resumed.
-/
import MigrationOperator.Proofs.Classification
import MigrationOperator.Proofs.Pipeline.Source
import MigrationOperator.Proofs.Adoption.Object
import MigrationOperator.Proofs.Resource.Platform

namespace MigrationOperator

/-! ## The phase of a status -/

/-- a field that may not be repeated takes what stands first under its name -/
theorem Column.takes_of_gather {α : Type} {style : Style} {c : Column α} {js : List Json} {slot : Option α} {x : α}
    (hstyle : style.repeats = false) (h : c.gather style (js.map Json.doc) none = .ok slot)
    (hx : slot.or c.absent = some x) : c.Takes js.head? x := by
  rcases js with _ | ⟨j, _ | ⟨j', js⟩⟩
  · exact gather_iff_takes.1 ⟨slot, h, hx⟩
  · exact gather_iff_takes.1 ⟨slot, h, hx⟩
  · simp only [List.map_cons, gather, Option.isSome_none, Bool.false_and, Bool.false_eq_true, if_false] at h
    cases hread : c.codec.read j.doc <;> simp [hread, hstyle, bind, Except.bind] at h

/-- the first field of a record takes what stands under its name, in whatever order the members are -/
theorem Codec.takes_first {α β ρ σ : Type} {style : Style} {c : Column β} {rest : Columns ρ σ} {row : α → β × ρ}
    {ofRow : β × ρ → α} {note : Option String} {ms : List (String × Json)} {x : α} (hstyle : style.repeats = false)
    (h : (record style (.cons c rest) row ofRow note).decode (.obj ms) = .ok x) :
    ∃ y ys, ofRow (y, ys) = x ∧ c.Takes (Entries.find? c.name ms) y := by
  change ((Columns.cons c rest).read style (.obj (Json.docMembers ms) .measured)).map ofRow = .ok x at h
  rw [Columns.read] at h
  cases hscan : (Columns.cons c rest).scan style (Json.docMembers ms) (Columns.cons c rest).empty with
  | error e => simp [hscan, bind, Except.bind, Except.map] at h
  | ok slots =>
    cases hfinish : (Columns.cons c rest).finish slots with
    | error e => simp [hscan, hfinish, bind, Except.bind, Except.map, Ending.check] at h
    | ok r =>
      simp only [hscan, hfinish, bind, Except.bind, Except.map, Ending.check] at h
      have hgather := (Columns.scan_cons_iff.1 hscan).1
      have hslot := (Columns.finish_cons_iff.1 hfinish).1
      rw [Json.under_docMembers] at hgather
      have htakes := Column.takes_of_gather hstyle hgather hslot
      rw [← Entries.find?_eq_head?] at htakes
      exact ⟨r.1, r.2, Except.ok.inj h, htakes⟩

theorem Phase.ofString_eq_missing_iff {t : String} : ofString t = .missing ↔ t = "" := by
  constructor
  · intro h
    have hback := asString_ofString t
    rw [h] at hback
    exact hback.symm
  · rintro rfl
    rfl

/-- the phase of a status that is read is the text under that name, which is empty when there is none -/
theorem Status.phase_of_decode {ms : List (String × Json)} {s : Status} (h : codec.decode (.obj ms) = .ok s) :
    s.phase = .ofString (((Entries.find? "phase" ms).bind Json.asString?).getD "") := by
  obtain ⟨phase, ys, rfl, htakes⟩ := Codec.takes_first rfl h
  change Column.Takes _ (Entries.find? "phase" ms) phase at htakes
  show phase = _
  rcases hfind : Entries.find? "phase" ms with _ | j
  · rw [hfind] at htakes
    exact (Option.some.inj htakes).symm
  · rw [hfind] at htakes
    cases j with
    | str t => exact (Except.ok.inj htakes).symm
    | _ => exact absurd htakes nofun

/-! ## Objects without a schema, read as a resource -/

namespace Opaque

variable {σ : Type} {k : Kind σ} {x : Opaque} {r : Resource σ}

/-- the members besides metadata, of an object that is read -/
theorem under_metadata_of_scan {found found' : Option Metadata} {ms : List (String × Doc)} {vs : List (String × Json)}
    (h : scan found ms = .ok (found', vs)) : Entries.under "metadata" vs = [] := by
  induction ms generalizing found found' vs with
  | nil =>
    obtain ⟨-, rfl⟩ := Prod.mk.inj (Except.ok.inj h)
    rfl
  | cons m ms ih =>
    obtain ⟨k, d⟩ := m
    rw [scan] at h
    split_ifs at h with hk hfound
    · cases hread : Metadata.codec.read d with
      | error e => simp [hread, bind, Except.bind] at h
      | ok m =>
        simp only [hread, bind, Except.bind] at h
        exact ih h
    · cases hvalue : d.value with
      | error e => simp [hvalue, bind, Except.bind] at h
      | ok v =>
        cases hrest : scan found ms with
        | error e => simp [hvalue, hrest, bind, Except.bind] at h
        | ok rest =>
          obtain ⟨later, ws⟩ := rest
          simp only [hvalue, hrest, DecodeError.ofText_ok, bind, Except.bind, pure, Except.pure] at h
          obtain ⟨-, rfl⟩ := Prod.mk.inj (Except.ok.inj h)
          rw [Entries.under_cons, if_neg (Ne.symm hk)]
          exact ih hrest

/-- an object that is read has its metadata in one place -/
theorem get?_metadata_of_read {d : Doc} (h : codec.read d = .ok x) : x.get? "metadata" = none := by
  cases d with
  | obj ms ending =>
    change read (.obj ms ending) = .ok x at h
    rw [read] at h
    cases hscan : scan none ms with
    | error e => simp [hscan, bind, Except.bind] at h
    | ok scanned =>
      obtain ⟨m, vs⟩ := scanned
      cases hending : ending.check with
      | error e => simp [hscan, hending, bind, Except.bind] at h
      | ok u =>
        simp only [hscan, hending, DecodeError.ofText_ok, bind, Except.bind, pure, Except.pure] at h
        obtain rfl := Except.ok.inj h
        show Entries.find? "metadata" (Entries.ofList (splitLabel {} vs).2) = none
        rw [Entries.find?_ofList, under_splitLabel (by decide) (by decide), under_metadata_of_scan hscan]
        rfl
  | _ => cases h

theorem metadata_write (h : x.get? "metadata" = none) :
    Entries.find? "metadata" x.write.members = some (Metadata.codec.write x.metadata) := by
  show Entries.find? "metadata" (Entries.ofList _) = _
  have hnone : Entries.under "metadata" x.members.entries = [] := by
    rw [Entries.under_eq_toList x.members.ordered]
    show (x.get? "metadata").toList = []
    rw [h]
    rfl
  rw [Entries.find?_ofList, Entries.under_append, under_labelMembers (by decide) (by decide), List.nil_append,
    Entries.under_cons, if_pos rfl, hnone]
  rfl

/-- an object is read as a resource from its metadata, as it is written, and from its spec and its status as they stand -/
theorem decode_write_iff : k.codec.decode x.write = .ok r ↔
    (Column.required "metadata" Metadata.codec).Takes (Entries.find? "metadata" x.write.members) r.metadata ∧
      (Column.required "spec" k.spec).Takes (x.get? "spec") r.spec ∧
        (Column.optional "status" Status.codec).Takes (x.get? "status") r.status := by
  have hordered : Entries.Ordered x.write.members := Entries.ordered_ofList _
  have hspec : Entries.find? "spec" x.write.members = x.get? "spec" := find?_write (by decide) (by decide) (by decide) x
  have hstatus : Entries.find? "status" x.write.members = x.get? "status" :=
    find?_write (by decide) (by decide) (by decide) x
  have hreads : k.codec.decode (.obj x.write.members) = .ok r ↔ k.Reads (Entries.find? · x.write.members) r :=
    Kind.decode_iff hordered
  refine Iff.trans hreads ?_
  constructor
  · rintro ⟨h1, h2, h3⟩
    rw [hspec] at h2
    rw [hstatus] at h3
    exact ⟨h1, h2, h3⟩
  · rintro ⟨h1, h2, h3⟩
    rw [← hspec] at h2
    rw [← hstatus] at h3
    exact ⟨h1, h2, h3⟩

end Opaque

namespace Adoption

variable {s : Settings} {x : Opaque}

/-! ## The phase that a document states -/

/-- a status that is no list is read with the phase that is looked up in it -/
theorem phase_of_takes {j : Option Json} {status : Option Status}
    (h : (Column.optional "status" Status.codec).Takes j status) (hlist : ∀ items, j ≠ some (.arr items)) :
    (status.map (·.phase)).getD .missing = .ofString (((j.bind (·.get? "phase")).bind Json.asString?).getD "") := by
  rcases j with _ | (_ | _ | _ | _ | _ | items | ms)
  · obtain rfl : none = status := Option.some.inj h
    rfl
  · obtain rfl : none = status := Except.ok.inj h
    rfl
  · exact absurd h nofun
  · exact absurd h nofun
  · exact absurd h nofun
  · exact absurd h nofun
  · exact absurd rfl (hlist items)
  · obtain ⟨y, rfl, hy⟩ := Pipeline.Source.takes_status_iff.1 h
    exact Status.phase_of_decode hy

theorem statedPhase_eq_none_iff : statedPhase x = none ↔
    (((x.get? "status").bind (·.get? "phase")).bind Json.asString?).getD "" = "" := by
  unfold statedPhase
  cases ((x.get? "status").bind (·.get? "phase")).bind Json.asString? <;> simp

/-- an object whose status is no list states no phase exactly when none is read of it -/
theorem statedPhase_eq_none_iff_of_takes {status : Option Status}
    (h : (Column.optional "status" Status.codec).Takes (x.get? "status") status)
    (hlist : ∀ items, x.get? "status" ≠ some (.arr items)) :
    statedPhase x = none ↔ (status.map (·.phase)).getD .missing = .missing := by
  rw [statedPhase_eq_none_iff, phase_of_takes h hlist, Phase.ofString_eq_missing_iff]

/-! ## What is resumed -/

/-- settings that mark an installation, and no others -/
def bareSettings : Settings := ⟨.ofList [("ROUTE_HOSTNAME", "foo.example.com"), ("SYNDESIS_VERSION", "1.8.0")]⟩

/-- an object of the default name with these members, as it is listed -/
def listed (members : List (String × Json)) : Opaque where
  label := some ⟨"syndesis.io/v1beta1", "Syndesis"⟩
  metadata :=
    { name := some "app", namespaceName := some "test", resourceVersion := some "6",
      creationTimestamp := some ⟨1500000000⟩ }
  members := .ofList members

/-- an object that is resumed as `found`. Its schema is not looked at: an object that both accept is classified as a
canonical one. -/
structure Resumed (s : Settings) (x : Opaque) (found : LegacyResource) : Prop where
  name : x.name = Canonical.defaultName
  decode : Legacy.kind.codec.decode x.write = .ok found
  spec : found.spec = s.spec
  classify : classify x = .ok (.legacy found) ∨ ∃ y, classify x = .ok (.canonical y)
  /-- no canonical resource is written with this spec -/
  notWritten : ∀ y, x.get? "spec" ≠ some (Canonical.Spec.codec.write y)
  /-- nothing is said of a status that is a list -/
  phase : (∀ items, x.get? "status" ≠ some (.arr items)) → found.phase = .missing

/-- **What is resumed is unfinished.** -/
theorem resumed_is_unfinished {ns : String} {xs : List Opaque} {pending : LegacyResource}
    (h : unfinished? xs (s.toResource ns) = some pending) :
    ∃ x found, xs = [x] ∧ Resumed s x found ∧ pending = { found with status := some s.status } := by
  obtain ⟨x, found, rfl, hname, hstated, hdecode, hspec, rfl⟩ := exists_of_unfinished h
  obtain ⟨-, hreadSpec, hreadStatus⟩ := Opaque.decode_write_iff.1 hdecode
  refine ⟨x, found, rfl, ⟨hname, hdecode, hspec, ?_, ?_, ?_⟩, rfl⟩
  · unfold classify classifyJson
    cases Canonical.kind.codec.decode x.write with
    | ok y => exact Or.inr ⟨y, rfl⟩
    | error e =>
      rw [hdecode]
      exact Or.inl rfl
  · intro y hy
    rw [hy] at hreadSpec
    exact Legacy.decode_canonical_ne y _ hreadSpec
  · intro hlist
    exact (statedPhase_eq_none_iff_of_takes hreadStatus hlist).1 hstated

theorem resumed_is_unfinished_listed : ∃ xs pending, unfinished? xs (bareSettings.toResource "test") = some pending ∧
    ∃ x found, xs = [x] ∧ Resumed bareSettings x found ∧ pending = { found with status := some bareSettings.status } := by
  have h : unfinished? [listed [("spec", Legacy.Spec.codec.write bareSettings.spec), ("status", .null)]]
      (bareSettings.toResource "test") =
        some ⟨(listed []).metadata, bareSettings.spec, some bareSettings.status⟩ := rfl
  exact ⟨_, _, h, resumed_is_unfinished h⟩

/-- an object with nothing but the hostname is resumed although it is canonical, and so is one whose status is the list of
an installed one -/
theorem exists_resumed_unclassified :
    (∃ x pending y, unfinished? [x] (bareSettings.toResource "test") = some pending ∧ classify x = .ok (.canonical y)) ∧
      ∃ x pending found, unfinished? [x] (bareSettings.toResource "test") = some pending ∧
        classify x = .ok (.legacy found) ∧ found.phase = .installed :=
  ⟨⟨listed [("spec", .obj [("routeHostname", .str "foo.example.com")])], _, _, rfl, rfl⟩,
    listed [("spec", Legacy.Spec.codec.write bareSettings.spec), ("status", .arr [.str "Installed"])], _, _, rfl, rfl, rfl⟩

/-! ## What is left half-finished -/

/-- a status in which no phase stands -/
inductive Phaseless : Option Json → Prop where
  | absent : Phaseless none
  | null : Phaseless (some .null)
  | read {ms : List (String × Json)} {status : Status} (h : Status.codec.decode (.obj ms) = .ok status)
    (hphase : status.phase = .missing) : Phaseless (some (.obj ms))

theorem Phaseless.exists_takes {j : Option Json} (h : Phaseless j) :
    (∀ items, j ≠ some (.arr items)) ∧ ∃ status, (Column.optional "status" Status.codec).Takes j status ∧
      (status.map (·.phase)).getD .missing = .missing := by
  cases h with
  | absent => exact ⟨nofun, none, rfl, rfl⟩
  | null => exact ⟨nofun, none, rfl, rfl⟩
  | read h hphase => exact ⟨nofun, _, Pipeline.Source.takes_status_iff.2 ⟨_, rfl, h⟩, hphase⟩

/-- an object as it was created for an installation, before its status was written. Labels, the rest of the metadata and
further members are the server's. -/
structure HalfFinished (s : Settings) (x : Opaque) : Prop where
  name : x.name = Canonical.defaultName
  metadata : x.metadata.Regular
  /-- the metadata does not stand among the other members -/
  apart : x.get? "metadata" = none
  spec : x.get? "spec" = some (Legacy.Spec.codec.write s.spec)
  status : Phaseless (x.get? "status")

/-- **Every half-finished adoption is resumed,** at the metadata that is listed. -/
theorem half_finished_is_resumed (h : HalfFinished s x) (ns : String) :
    unfinished? [x] (s.toResource ns) = some ⟨x.metadata, s.spec, some s.status⟩ := by
  obtain ⟨hlist, status, hstatus, hphase⟩ := h.status.exists_takes
  have hstated : statedPhase x = none := (statedPhase_eq_none_iff_of_takes hstatus hlist).2 hphase
  have hmetadata : (Column.required "metadata" Metadata.codec).Takes (Entries.find? "metadata" x.write.members)
      x.metadata := by
    rw [Opaque.metadata_write h.apart]
    exact Metadata.codec_keeps h.metadata
  have hspec : (Column.required "spec" Legacy.Spec.codec).Takes (x.get? "spec") s.spec := by
    rw [h.spec]
    exact Legacy.Spec.lawful_codec s.spec
  have hfound : Legacy.kind.codec.decode x.write = .ok ⟨x.metadata, s.spec, status⟩ :=
    Opaque.decode_write_iff.2 ⟨hmetadata, hspec, hstatus⟩
  exact unfinished?_of_decode h.name hstated hfound rfl

theorem half_finished_is_resumed_listed : ∃ x, HalfFinished bareSettings x ∧
    unfinished? [x] (bareSettings.toResource "test") = some ⟨x.metadata, bareSettings.spec, some bareSettings.status⟩ ∧
      x.metadata.resourceVersion = some "6" := by
  have h : HalfFinished bareSettings (listed [("note", .bool true), ("spec", Legacy.Spec.codec.write bareSettings.spec),
      ("status", .obj [("phase", .str ""), ("version", .str "1.8.0")])]) := by
    refine ⟨rfl, ⟨?_, nofun, nofun⟩, rfl, rfl, .read rfl rfl⟩
    intro t ht
    obtain rfl := Option.some.inj ht
    exact ⟨by decide, by decide⟩
  exact ⟨_, h, half_finished_is_resumed h "test", rfl⟩

end Adoption

end MigrationOperator
