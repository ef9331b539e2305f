/-
Requests of an adopter that is the only one to write.

Where nobody else writes, an adopter creates an object while there is still none, and writes the status of the one object
that it listed or created while that still stands at the revision it carries and states no phase (`Pinned`). So no write
of it is too late, and `Alters` is all that one request of it does to the objects (`Pinned.step`). Where what is listed
is managed, it does not write at all (`Idle`).
-/
import MigrationOperator.Proofs.Coexistence.Basic
import MigrationOperator.Proofs.Coexistence.Phase

namespace MigrationOperator.Adoption

variable {c : Context} {s : Settings} {stage : Stage} {r : Request} {a : Answer} {objs objs' : StringMap Json}
  {x : LegacyResource} {docs : List Json} {ds : List Opaque}

/-! ## Writing alone -/

/-- what a request of an adopter does to the objects -/
inductive Alters : StringMap Json → StringMap Json → Prop where
  | same (objs : StringMap Json) : Alters objs objs
  /-- the first object is created, without a status -/
  | created {s : Settings} {revision : String} {doc : Json}
    (hstands : doc.Stands Canonical.defaultName (some revision)) (hrereads : doc.Rereads)
    (hspec : doc.get? "spec" = some (Legacy.Spec.codec.write s.spec)) (hstatus : doc.get? "status" = none) :
    Alters .empty (.singleton Canonical.defaultName doc)
  /-- the one object gets a status -/
  | described {s : Settings} {name revision : String} {patch doc doc' : Json} (hphase : doc.statedPhase = none)
    (h : Patched (.singleton name doc) name revision patch doc doc')
    (hpatch : patch.get? "status" = some (Status.codec.write s.status)) :
    Alters (.singleton name doc) (.singleton name doc')

/-- an object that states no phase stands alone, at the revision that the resource carries -/
def Awaits (objs : StringMap Json) (x : LegacyResource) : Prop :=
  ∃ doc revision, objs = .singleton x.name doc ∧ doc.Stands x.name (some revision) ∧
    x.metadata.resourceVersion = some revision ∧ doc.statedPhase = none

/-- what a stage is about to write is not too late -/
def Pinned (c : Context) (objs : StringMap Json) : Stage → Prop
  | .creating _ => objs = .empty
  | .describing s created =>
    Awaits objs ((s.toResource c.namespaceName).atRevision created.metadata.resourceVersion)
  | .resuming _ pending => Awaits objs pending
  | .readingSecret | .listing _ | .finished _ => True

/-- the status of a resource that is awaited is written, or its request goes elsewhere -/
theorem Awaits.step {ns : String} (h : Awaits objs x) (hresponds : Responds ns objs (statusRequest c x s.status) a objs') :
    Alters objs objs' ∧ ¬ a.Conflicts := by
  obtain ⟨doc, revision, rfl, hstands, hrevision, hphase⟩ := h
  cases hresponds with
  | elsewhere _ ha => exact ⟨.same _, ha.not_conflicts⟩
  | served hserved =>
    rcases hserved.serves.patch_cases with ⟨found, doc', new, -, rfl, hpatched, ha⟩ | ⟨-, -, -, hstale⟩
    · obtain ⟨-, rfl⟩ := hpatched.eq_of_singleton
      rw [StringMap.insert_singleton]
      exact ⟨.described hphase hpatched (Pipeline.get?_status_statusPatch _ _), fun hc => ha.not_failed hc.failed⟩
    · have hfalse := hstale doc (StringMap.get?_singleton_self _ _)
      rw [hstands.isCurrent ((Pipeline.revisionOf_statusPatch _ _).trans hrevision)] at hfalse
      cases hfalse

/-- where there is no object yet, it is created, and its status is to be written at the revision it was created at -/
theorem creating_step (hresponds : Responds c.namespaceName .empty
      ⟨c.namespaceName, .create .legacy (body s c.namespaceName)⟩ a objs') :
    Alters .empty objs' ∧ Pinned c objs' ((Stage.creating s).next c a) ∧ ¬ a.Conflicts := by
  have hname : Cluster.nameOf (body s c.namespaceName) = Canonical.defaultName :=
    (stands_body s c.namespaceName).nameOf_eq
  obtain ⟨w, hserved⟩ := hresponds.faultless
  rcases hserved.serves.create_cases with ⟨doc, revision, -, hw, hobjs, hspec, hstatus, hstands, ha⟩ | ⟨-, -, -, doc, hdoc⟩
  · have hrereads : doc.Rereads :=
      hserved.created _ _ doc rfl (by rw [hw]; rfl) (by rw [hobjs, StringMap.get?_insert_self]) (rereads_body s _)
    rw [hname] at hobjs hstands
    subst hobjs
    refine ⟨.created hstands hrereads (hspec.trans (get?_spec_body s _)) hstatus, ?_, fun hc => ha.not_failed hc.failed⟩
    rw [Stage.next]
    cases hd : Action.decode Legacy.kind.codec a with
    | error e => trivial
    | ok created =>
      have hread := (hstands.decode_label_iff _).1 ((ha.decode_ok_iff Legacy.kind.codec).1 hd)
      exact ⟨doc, revision, rfl, hstands, (hstands.identity_of_decode hread).2, Json.statedPhase_of_absent hstatus⟩
  · cases hdoc

/-- what is listed decides what is awaited -/
theorem pinned_afterListing (hstored : Stored objs)
    (hds : List.Forall₂ (fun doc d => Opaque.codec.decode (Cluster.label .canonical doc) = .ok d) objs.values ds) :
    Pinned c objs (.afterListing c s ds) := by
  rw [Stage.afterListing]
  split
  · rename_i hempty
    obtain rfl := List.isEmpty_iff.1 hempty
    exact StringMap.eq_empty_of_entries_eq_nil (List.map_eq_nil_iff.1 (List.forall₂_nil_right_iff.1 hds))
  · cases hpending : unfinished? ds (s.toResource c.namespaceName) with
    | none => trivial
    | some pending =>
      obtain ⟨d, found, rfl, -, hphase, hfound, -, rfl⟩ := exists_of_unfinished hpending
      -- one object is listed, so there is one
      have hone : objs.entries.length = 1 := by simpa [StringMap.values] using hds.length_eq
      obtain ⟨name, doc, rfl⟩ := StringMap.exists_eq_singleton hone
      obtain ⟨hd, -⟩ := List.forall₂_cons.1 hds
      obtain ⟨revision, hstands⟩ := hstored name doc (StringMap.get?_singleton_self _ _)
      obtain ⟨hname, hrevision⟩ := (hstands.label .canonical).identity_of_decode_write hd hfound
      have hdisplay : found.name = name := by
        rw [Resource.name, Metadata.displayName, hname]
        rfl
      exact ⟨doc, revision, congrArg (StringMap.singleton · doc) hdisplay.symm,
        show doc.Stands found.name _ from hdisplay.symm ▸ hstands, hrevision,
        (hstands.statedPhase_listed hd).symm.trans hphase⟩

/-- **One request of an adopter that alone writes.** It changes the objects as an adoption does or not at all, leads to a
stage whose write is not too late, and meets no conflict. -/
theorem Pinned.step (hstored : Stored objs) (h : Pinned c objs stage) (hr : stage.request? c = some r)
    (hresponds : Responds c.namespaceName objs r a objs') :
    Alters objs objs' ∧ Pinned c objs' (stage.next c a) ∧ ¬ a.Conflicts := by
  cases stage with
  | readingSecret =>
    obtain rfl := Option.some.inj hr
    obtain ⟨rfl, ha⟩ := hresponds.of_read rfl
    refine ⟨.same _, ?_, ha⟩
    obtain ⟨s, hs⟩ | ⟨result, hs⟩ := Stage.next_readingSecret_cases c a
    · rw [hs]
      trivial
    · rw [hs]
      trivial
  | listing s =>
    obtain rfl := Option.some.inj hr
    obtain ⟨l, hl, hds⟩ := hresponds.exists_listing hstored
    obtain ⟨rfl, ha⟩ := hresponds.of_read rfl
    refine ⟨.same _, ?_, ha⟩
    rw [Stage.next, hl]
    exact pinned_afterListing hstored hds
  | creating s =>
    obtain rfl := Option.some.inj hr
    obtain rfl : objs = .empty := h
    exact creating_step hresponds
  | describing s created =>
    obtain rfl := Option.some.inj hr
    obtain ⟨halters, ha⟩ := Awaits.step h hresponds
    obtain ⟨result, hs⟩ := Stage.exists_next_describing c s created a
    exact ⟨halters, by rw [hs]; trivial, ha⟩
  | resuming s pending =>
    obtain rfl := Option.some.inj hr
    obtain ⟨halters, ha⟩ := Awaits.step h hresponds
    obtain ⟨result, hs⟩ := Stage.exists_next_resuming c s pending a
    exact ⟨halters, by rw [hs]; trivial, ha⟩
  | finished result => cases hr

/-! ## Not writing -/

/-- there are objects, and none of them is taken for an unfinished one -/
def Managed (objs : StringMap Json) : Prop :=
  ∀ ds, List.Forall₂ (fun doc d => Opaque.codec.decode (Cluster.label .canonical doc) = .ok d) objs.values ds →
    ds ≠ [] ∧ ∀ expected, unfinished? ds expected = none

/-- a stage that is not about to write -/
def Stage.Idle : Stage → Prop
  | .readingSecret | .listing _ | .finished _ => True
  | .creating _ | .describing _ _ | .resuming _ _ => False

theorem Stage.Idle.isWrite (h : stage.Idle) (hr : stage.request? c = some r) : r.isWrite = false := by
  cases stage with
  | readingSecret => exact Option.some.inj hr ▸ rfl
  | listing s => exact Option.some.inj hr ▸ rfl
  | finished result => cases hr
  | _ => exact absurd h id

/-- where all is managed, an adopter stays idle -/
theorem Stage.Idle.next (h : stage.Idle) (hstored : Stored objs) (hmanaged : Managed objs)
    (hr : stage.request? c = some r) (hresponds : Responds c.namespaceName objs r a objs') : (stage.next c a).Idle := by
  cases stage with
  | readingSecret =>
    obtain ⟨s, hs⟩ | ⟨result, hs⟩ := Stage.next_readingSecret_cases c a
    · rw [hs]
      trivial
    · rw [hs]
      trivial
  | listing s =>
    obtain rfl := Option.some.inj hr
    obtain ⟨l, hl, hds⟩ := hresponds.exists_listing hstored
    obtain ⟨hne, hnone⟩ := hmanaged _ hds
    rw [Stage.next, hl]
    dsimp only
    rw [Stage.afterListing, if_neg (fun he => hne (List.isEmpty_iff.1 he)), hnone]
    trivial
  | finished result => trivial
  | _ => exact absurd h id

end MigrationOperator.Adoption
