/-
The phase that a stored object states.

The adopter writes an object that states no phase, and the pipeline one that reads as installed. Whoever lists an object
sees the phase that is stored (`Stands.statedPhase_listed`), and an object that reads as installed states so
(`Stands.statedPhase_of_decode`). A status write states the phase that it carries (`Patched.statedPhase`).
-/
import MigrationOperator.Proofs.Adoption.Object
import MigrationOperator.Proofs.Pipeline.Source

namespace MigrationOperator

namespace Json

variable {doc doc' : Json} {name phase : String} {revision : Option String}

/-- the phase that an object states, if it states one -/
def statedPhase (doc : Json) : Option String :=
  ((doc.at? ["status", "phase"]).bind asString?).filter (!·.isEmpty)

/-- there is no status, or it is an object -/
def HasPlainStatus (doc : Json) : Prop := ∀ j, doc.get? "status" = some j → ∃ ms, j = .obj ms

/-- the status decides -/
theorem statedPhase_congr (h : doc'.get? "status" = doc.get? "status") : doc'.statedPhase = doc.statedPhase := by
  rw [statedPhase, statedPhase, at?_status, at?_status, h]

theorem statedPhase_of_absent (h : doc.get? "status" = none) : doc.statedPhase = none := by
  rw [statedPhase, at?_status, h]
  rfl

theorem hasPlainStatus_of_absent (h : doc.get? "status" = none) : doc.HasPlainStatus := by
  intro j hj
  rw [h] at hj
  cases hj

theorem statedPhase_of_at? (h : doc.at? ["status", "phase"] = some (.str phase)) (hne : phase.isEmpty = false) :
    doc.statedPhase = some phase := by
  rw [statedPhase, h]
  simp [asString?, hne]

/-- what is listed states the phase that is stored -/
theorem Stands.statedPhase_listed (h : doc.Stands name revision) {d : Opaque}
    (hd : Opaque.codec.decode (Cluster.label .canonical doc) = .ok d) :
    Adoption.statedPhase d = doc.statedPhase := by
  obtain ⟨d', hd', -, hstatus⟩ := (h.label .canonical).exists_decode
  obtain rfl := Except.ok.inj (hd.symm.trans hd')
  rw [h.get?_label .canonical (by decide)] at hstatus
  rw [Adoption.statedPhase, statedPhase, at?_status, hstatus]
  cases doc.get? "status" <;> rfl

/-- what reads as installed states so -/
theorem Stands.statedPhase_of_decode (h : doc.Stands name revision) (hplain : doc.HasPlainStatus) {σ : Type} {k : Kind σ}
    {x : Resource σ} (hx : k.codec.decode doc = .ok x) (hphase : x.phase = .installed) :
    doc.statedPhase = some "Installed" := by
  have hread := (h.decode_iff.1 hx).status
  cases hstatus : doc.get? "status" with
  | none =>
    rw [hstatus] at hread
    have hnone : x.status = none := (Option.some.inj hread).symm
    rw [Resource.phase, hnone] at hphase
    cases hphase
  | some j =>
    obtain ⟨ms, rfl⟩ := hplain j hstatus
    rw [hstatus] at hread
    obtain ⟨s, hs, hdecode⟩ := Pipeline.Source.takes_status_iff.1 hread
    rw [Resource.phase, hs] at hphase
    have hordered : Entries.Ordered ms := (h.normal.get? hstatus).1
    refine statedPhase_of_at? ?_ (by decide)
    rw [at?_pair hstatus]
    exact Migration.find?_phase_of_decode hordered hdecode hphase

end Json

/-- after a status write an object states the phase that was written -/
theorem Patched.statedPhase {objs : StringMap Json} {name revision phase : String} {patch doc doc' : Json} {status : Status}
    (h : Patched objs name revision patch doc doc') (hpatch : patch.get? "status" = some (Status.codec.write status))
    (hphase : Entries.find? "phase" (Status.codec.write status).members = some (.str phase)) (hne : phase.isEmpty = false) :
    doc'.statedPhase = some phase ∧ doc'.HasPlainStatus := by
  have hnormal : (Status.codec.write status).Normal := Codec.Tidy.normal_write (c := Status.codec) _
  have hstatus := h.status
  rw [hpatch] at hstatus
  change _ = some (Json.mergePatch (.obj (Status.codec.write status).members) _) at hstatus
  constructor
  · refine Json.statedPhase_of_at? ?_ hne
    rw [Json.at?_status, hstatus]
    exact Json.get?_mergePatch_of_str hnormal.members.1 hphase _
  · intro j hj
    obtain rfl := Option.some.inj (hstatus.symm.trans hj)
    rw [Json.mergePatch]
    exact ⟨_, rfl⟩

end MigrationOperator
