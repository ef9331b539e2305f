/-
Requests of a pipeline that is the only one to write, or that does not write.

A run reports that there are too many objects only after it listed several (`Stage.not_crowded_next`). It does not get to
write where nothing that it loads states that it is installed (`isPreliminary_next_loadingLegacy`). Where the one object
states so, and nobody else writes, the run writes that object at the revision it stands at (`Stage.Poised`), and the
object goes on to state so (`Installed.patch_step`, `Installed.replace_step`).
-/
import MigrationOperator.Proofs.Coexistence.Basic
import MigrationOperator.Proofs.Coexistence.Phase
import MigrationOperator.Proofs.Pipeline.Conversation

namespace MigrationOperator.Pipeline

variable {c : Context} {s : Stage} {a : Answer} {ds : List Opaque} {ns : String} {objs objs' : StringMap Json}
  {l : LegacyResource} {x : LegacyResource} {pin : Option String}

/-! ## Reports of too many objects -/

/-- the run reported that there are too many objects -/
def Stage.Crowded : Stage → Prop
  | .finished rep => ∃ t, rep.result = .error (.tooMany t)
  | _ => False

namespace Stage

theorem not_crowded_finished {rep : Report Outcome} (h : ∀ t, rep.result ≠ .error (.tooMany t)) :
    ¬ (Stage.finished rep).Crowded :=
  fun ⟨t, ht⟩ => h t ht

theorem not_crowded_ok {census : Option Census} {outcome : Outcome} :
    ¬ (Stage.finished ⟨census, .ok outcome⟩).Crowded :=
  not_crowded_finished fun _ h => by cases h

/-- what an answer fails with is something else -/
theorem decode_ne_tooMany {α : Type} {codec : Codec α} {e : OperatorError} (h : Action.decode codec a = .error e)
    (t : TooManyInstances) : e ≠ .tooMany t := by
  rintro rfl
  cases a with
  | unreachable message => cases h
  | response code body =>
    rw [Action.decode] at h
    split at h
    · cases h
    · cases hd : codec.decodeText body.reading <;> rw [hd] at h <;> cases h

theorem not_crowded_failed {e : OperatorError} (he : ∀ t, e ≠ .tooMany t) (s : Stage) : ¬ (s.failed e).Crowded :=
  not_crowded_finished fun t ht => he t (Except.error.inj ht)

theorem not_crowded_missed {e : OperatorError} (he : ∀ t, e ≠ .tooMany t) (s : Stage) (census : Census) :
    ¬ (s.missed census e).Crowded := by
  rw [missed]
  split
  · exact not_crowded_ok
  · exact not_crowded_failed he s

theorem not_crowded_afterLoading (l : LegacyResource) : ¬ (afterLoading l).Crowded := by
  rw [afterLoading]
  split
  · split
    · exact id
    · exact id
  · exact not_crowded_ok

/-- one object is not too many -/
theorem not_crowded_afterListing (h : ds.length ≤ 1) : ¬ (afterListing (Candidates.classifyAll ds)).Crowded := by
  rcases ds with _ | ⟨d, _ | ⟨d', ds⟩⟩
  · exact not_crowded_ok
  · rw [Candidates.classifyAll_singleton]
    cases classify d with
    | error u => exact not_crowded_finished fun _ h => by cases h
    | ok k => cases k <;> exact id
  · simp only [List.length_cons] at h
    omega

/-- an answer leads to such a report only if it listed several objects -/
theorem not_crowded_next (h : ¬ s.Crowded)
    (hlisting : s = .listing → ∀ l, Action.decode ObjectList.codec a = .ok l → l.items.length ≤ 1) :
    ¬ (s.next a).Crowded := by
  cases s with
  | listing =>
    rw [next]
    cases hd : Action.decode ObjectList.codec a with
    | ok l => exact not_crowded_afterListing (hlisting rfl l hd)
    | error e => exact not_crowded_missed (decode_ne_tooMany hd) _ _
  | loadingLegacy x =>
    rw [next]
    cases hd : Action.decode Legacy.kind.codec a with
    | ok l => exact not_crowded_afterLoading l
    | error e => exact not_crowded_missed (decode_ne_tooMany hd) _ _
  | loadingCanonical x =>
    rw [next]
    cases hd : Action.decode Canonical.kind.codec a with
    | ok y => exact not_crowded_ok
    | error e => exact not_crowded_missed (decode_ne_tooMany hd) _ _
  | patching l =>
    rw [next]
    cases hd : Action.decode Opaque.codec a with
    | ok patched => exact id
    | error e => exact not_crowded_failed (decode_ne_tooMany hd) _
  | replacing l pin =>
    rw [next]
    cases hd : Action.decode Canonical.kind.codec a with
    | ok y => exact not_crowded_ok
    | error e => exact not_crowded_failed (decode_ne_tooMany hd) _
  | creating l =>
    rw [next]
    cases hd : Action.decode Canonical.kind.codec a with
    | ok created => exact id
    | error e => exact not_crowded_failed (decode_ne_tooMany hd) _
  | describing l created =>
    rw [next]
    cases hd : Action.decode Opaque.codec a with
    | error e => exact not_crowded_failed (decode_ne_tooMany hd) _
    | ok patched =>
      dsimp only
      cases Canonical.kind.codec.decode patched.write with
      | ok y => exact not_crowded_ok
      | error e => exact not_crowded_failed (fun _ h => by cases h) _
  | finished rep => exact h

/-- so it never comes while there is at most one -/
theorem not_crowded_of_responds {r : Request} (h : ¬ s.Crowded) (hr : s.request? c = some r) (hstored : Stored objs)
    (hone : objs.entries.length ≤ 1) (hresponds : Responds c.namespaceName objs r a objs') : ¬ (s.next a).Crowded := by
  refine not_crowded_next h fun hs l hl => ?_
  subst hs
  obtain rfl := Option.some.inj hr
  obtain ⟨l', hl', hds⟩ := hresponds.exists_listing hstored
  obtain rfl := Except.ok.inj (hl.symm.trans hl')
  rw [← hds.length_eq, StringMap.values, List.length_map]
  exact hone

end Stage

/-! ## Not writing -/

/-- an object that does not state that it is installed is not written after it was loaded -/
theorem isPreliminary_next_loadingLegacy (hstored : Stored objs)
    (hphase : ∀ name doc, objs.get? name = some doc → doc.HasPlainStatus ∧ doc.statedPhase ≠ some "Installed")
    (hresponds : Responds ns objs ⟨ns, .read .legacy x.name⟩ a objs') :
    ((Stage.loadingLegacy x).next a).IsPreliminary := by
  rw [Stage.next]
  cases hl : Action.decode Legacy.kind.codec a with
  | error e => exact Stage.isPreliminary_missed _ _ e
  | ok l =>
    obtain ⟨doc, revision, hdoc, hstands, hread⟩ := hresponds.exists_of_decode_read hstored hl
    obtain ⟨hplain, hnot⟩ := hphase _ doc hdoc
    dsimp only
    rw [Stage.afterLoading, if_neg fun hp => hnot (hstands.statedPhase_of_decode hplain hread hp)]
    exact fun _ h => by cases h

/-! ## Writing alone -/

/-- one object is stored, and it states that it is installed -/
inductive Installed : StringMap Json → Prop where
  | single {name revision : String} {doc : Json} (hstands : doc.Stands name (some revision))
    (hphase : doc.statedPhase = some "Installed") : Installed (.singleton name doc)

theorem Installed.stored (h : Installed objs) : Stored objs := by
  cases h with
  | single hstands _ => exact .singleton ⟨_, hstands⟩

theorem Installed.length_le_one (h : Installed objs) : objs.entries.length ≤ 1 := by
  cases h with
  | single _ _ => exact Nat.le_refl 1

/-- the object that was loaded is the one that is stored, and it stands at this revision -/
def Current (objs : StringMap Json) (l : LegacyResource) (pin : Option String) : Prop :=
  ∃ name revision doc, objs = .singleton name doc ∧ doc.Stands name (some revision) ∧
    doc.statedPhase = some "Installed" ∧ l.metadata.name = some name ∧ pin = some revision

/-- what a stage is about to write is not too late -/
def Stage.Poised (objs : StringMap Json) : Stage → Prop
  | .patching l => Current objs l l.metadata.resourceVersion
  | .replacing l pin => Current objs l pin
  | .creating _ | .describing _ _ => False
  | .listing | .loadingLegacy _ | .loadingCanonical _ | .finished _ => True

theorem Stage.IsPreliminary.poised (h : s.IsPreliminary) : s.Poised objs := by
  cases s with
  | patching l => exact absurd h id
  | replacing l pin => exact absurd h id
  | creating l => exact absurd h id
  | describing l created => exact absurd h id
  | _ => trivial

/-- the object is loaded at the revision it stands at -/
theorem Installed.poised_next_loadingLegacy (h : Installed objs)
    (hresponds : Responds ns objs ⟨ns, .read .legacy x.name⟩ a objs') : ((Stage.loadingLegacy x).next a).Poised objs := by
  rw [Stage.next]
  cases hl : Action.decode Legacy.kind.codec a with
  | error e => exact (Stage.isPreliminary_missed _ _ e).poised
  | ok l =>
    obtain ⟨found, _, hfound, -, hread⟩ := hresponds.exists_of_decode_read h.stored hl
    obtain @⟨name, revision, doc, hstands, hphase⟩ := h
    obtain ⟨-, rfl⟩ := StringMap.get?_singleton_eq_some.1 hfound
    obtain ⟨hname, hrevision⟩ := hstands.identity_of_decode hread
    dsimp only
    by_cases hp : l.phase = .installed
    · rw [Stage.afterLoading_eq_patching hp hrevision]
      exact ⟨name, revision, found, rfl, hstands, hphase, hname, hrevision⟩
    · rw [Stage.afterLoading, if_neg hp]
      trivial

/-- the status of the object is written, and the replacement is to carry the revision that this leaves it at -/
theorem Current.patch_step (h : Current objs l l.metadata.resourceVersion)
    (hresponds : Responds c.namespaceName objs (patchRequest c l) a objs') :
    Installed objs' ∧ ((Stage.patching l).next a).Poised objs' ∧ ¬ a.Conflicts := by
  obtain ⟨name, revision, doc, rfl, hstands, -, hname, hrevision⟩ := h
  obtain ⟨w, hserved⟩ := hresponds.faultless
  rcases hserved.serves.patch_cases with ⟨found, doc', new, -, rfl, hpatched, ha⟩ | ⟨-, -, -, hstale⟩
  · rw [successor_name hname] at hpatched ⊢
    obtain ⟨-, rfl⟩ := hpatched.eq_of_singleton
    rw [StringMap.insert_singleton]
    have hphase := (hpatched.statedPhase (get?_status_statusPatch _ _)
      (Migration.find?_note _ _) (by decide)).1
    refine ⟨.single hpatched.stands hphase, ?_, fun hc => ha.not_failed hc.failed⟩
    rw [Stage.next]
    cases hd : Action.decode Opaque.codec a with
    | error e => trivial
    | ok patched =>
      have hnew := (hpatched.stands.label _).revision_eq_of_decode ((ha.decode_ok_iff Opaque.codec).1 hd)
      exact ⟨name, new, doc', rfl, hpatched.stands, hphase, hname, hnew⟩
  · have hfalse := hstale doc (by rw [successor_name hname, StringMap.get?_singleton_self])
    rw [hstands.isCurrent ((revisionOf_statusPatch _ _).trans hrevision)] at hfalse
    cases hfalse

/-- the object is replaced, which leaves its status as it is, and the run is over -/
theorem Current.replace_step (h : Current objs l pin)
    (hresponds : Responds c.namespaceName objs (replaceRequest c l pin) a objs') :
    Installed objs' ∧ ((Stage.replacing l pin).next a).Poised objs' ∧ ¬ a.Conflicts := by
  obtain ⟨name, revision, doc, rfl, hstands, hphase, hname, hrevision⟩ := h
  obtain ⟨w, hserved⟩ := hresponds.faultless
  rcases hserved.serves.replace_cases with ⟨found, doc', new, -, rfl, hreplaced, ha⟩ | ⟨-, -, -, hstale⟩
  · rw [successor_name hname] at hreplaced ⊢
    obtain ⟨-, rfl⟩ := hreplaced.eq_of_singleton
    rw [StringMap.insert_singleton]
    refine ⟨.single hreplaced.stands ((Json.statedPhase_congr hreplaced.status).trans hphase), ?_,
      fun hc => ha.not_failed hc.failed⟩
    rw [Stage.next]
    cases Action.decode Canonical.kind.codec a with
    | ok y => trivial
    | error e => trivial
  · have hfalse := hstale doc (by rw [successor_name hname, StringMap.get?_singleton_self])
    rw [hstands.isCurrent ((stands_replacement c l pin).revisionOf_eq.trans hrevision)] at hfalse
    cases hfalse

end MigrationOperator.Pipeline
