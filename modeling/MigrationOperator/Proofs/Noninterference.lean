/-
The adopter and the startup pipeline never interfere.

They share the objects of a namespace without a lock. What keeps them apart is the phase: which of them may write is
settled by what is stored when they begin (`exists_settles`), and neither changes it. So along every interleaving of their
requests at most one of them writes, no write comes too late, no second object appears beside the first, and the
pipeline reports too many objects only if there were several from the start. From an empty store it never fails, however
far the adopter got meanwhile (`adopter_and_pipeline_never_interfere`).
-/
import MigrationOperator.Proofs.Coexistence.OnCluster

namespace MigrationOperator

open Coexistence

variable {c : Context} {objs : StringMap Json} {ts : List Turn} {S : Coexistence} {attempts : Nat}

/-- a stable regime that holds of these objects, and in which they do not become too many -/
structure Settles (R : Regime) (c : Context) (objs : StringMap Json) : Prop where
  stable : R.Stable c
  store : R.store objs
  size : ∀ objs', R.store objs' → objs'.entries.length ≤ max objs.entries.length 1
  calm : objs.entries.length ≤ 1 → ∀ objs' s, R.pipeline objs' s → ¬ s.Crowded

theorem Uninstalled.settles (h : Uninstalled objs) (c : Context) : Settles (uninstalled c) c objs where
  stable := stable_uninstalled c
  store := h
  size _ h' := Nat.le_trans (Uninstalled.length_le_one h') (Nat.le_max_right _ _)
  calm _ _ _ hs := hs.2

theorem Pipeline.Installed.settles (h : Pipeline.Installed objs) (c : Context) : Settles installed c objs where
  stable := stable_installed c
  store := h
  size _ h' := Nat.le_trans (Pipeline.Installed.length_le_one h') (Nat.le_max_right _ _)
  calm _ _ _ hs := hs.2

theorem settles_crowd (hstored : Stored objs) (hmany : 2 ≤ objs.entries.length) (c : Context) :
    Settles (crowd objs) c objs where
  stable := stable_crowd c hstored hmany
  store := rfl
  size objs' h' := by
    obtain rfl : objs' = objs := h'
    exact Nat.le_max_left _ _
  calm hfew := absurd hmany (by omega)

/-- what is stored settles the regime -/
theorem exists_settles (c : Context) (hstored : Stored objs)
    (hplain : ∀ name doc, objs.get? name = some doc → doc.HasPlainStatus) : ∃ R, Settles R c objs := by
  rcases Nat.lt_or_ge objs.entries.length 2 with hfew | hmany
  · rcases StringMap.eq_empty_or_singleton hfew with rfl | ⟨name, doc, rfl⟩
    · exact ⟨_, Uninstalled.empty.settles c⟩
    · have hget := StringMap.get?_singleton_self name doc
      obtain ⟨revision, hstands⟩ := hstored name doc hget
      by_cases hphase : doc.statedPhase = some "Installed"
      · exact ⟨_, (Pipeline.Installed.single hstands hphase).settles c⟩
      · exact ⟨_, (Uninstalled.single hstands (hplain name doc hget) hphase).settles c⟩
  · exact ⟨_, settles_crowd hstored hmany c⟩

/-- the requests that a pipeline makes of an empty store, or of one in which the adopter is at work -/
def Sendable (c : Context) : Prop :=
  Request.fault? ⟨c.namespaceName, .list⟩ = none ∧
    Request.fault? ⟨c.namespaceName, .read .legacy Canonical.defaultName⟩ = none

/-- from an empty store a pipeline whose requests can be sent finds nothing, or an object that is not eligible yet -/
theorem result_of_empty (hsendable : Sendable c)
    (ht : Coexistence.Trace c.namespaceName (beginning c attempts .empty) ts S)
    {rep : Pipeline.Report Pipeline.Outcome} (hrep : S.pipeline = .done rep) :
    rep.result = .ok .noResource ∨ rep.result = .ok .notEligible := by
  have hbegins := (stable_emerging c).governs_beginning (Or.inl rfl) attempts
  obtain ⟨⟨-, -, stage, hruns, hstage⟩, -⟩ := (stable_emerging c).trace hbegins ht
  rw [hrep] at hruns
  rcases hruns.done_cases with rfl | ⟨r, fault, hr, hf, -⟩
  · exact hstage
  · -- every request up to then can be sent
    cases stage with
    | listing =>
      obtain rfl := Option.some.inj hr
      cases hsendable.1.symm.trans hf
    | loadingLegacy x =>
      obtain rfl := Option.some.inj hr
      have hname : x.name = Canonical.defaultName := hstage.1
      rw [hname] at hf
      cases hsendable.2.symm.trans hf
    | finished rep => cases hr
    | _ => exact absurd hstage id

/-- **The adopter and the pipeline never interfere.** Whatever is stored, with every status an object if there is one,
whatever the secret holds, and however their requests are interleaved: at most one of the two writes, no request is
answered with a conflict, there are never more objects than at first, or than one, the pipeline reports too many only if
there were several at first, and if there was none it reports that there is none, or none that is eligible. -/
theorem adopter_and_pipeline_never_interfere (hstored : Stored objs)
    (hplain : ∀ name doc, objs.get? name = some doc → doc.HasPlainStatus)
    (ht : Coexistence.Trace c.namespaceName (beginning c attempts objs) ts S) :
    (∃ party, ∀ t ∈ ts, t.request.isWrite = true → t.party = party) ∧
      (∀ t ∈ ts, ¬ t.answer.Conflicts) ∧
      S.objects.entries.length ≤ max objs.entries.length 1 ∧
      (∀ rep e, S.pipeline = .done rep → rep.result = .error (.tooMany e) → 2 ≤ objs.entries.length) ∧
      (objs = .empty → Sendable c → ∀ rep, S.pipeline = .done rep →
        rep.result = .ok .noResource ∨ rep.result = .ok .notEligible) := by
  obtain ⟨R, hR⟩ := exists_settles c hstored hplain
  have hbegins := hR.stable.governs_beginning hR.store attempts
  obtain ⟨⟨hstore, -, stage, hruns, hstage⟩, hturns⟩ := hR.stable.trace hbegins ht
  refine ⟨⟨R.writer, fun t ht => (hturns t ht).1⟩, fun t ht => (hturns t ht).2, hR.size _ hstore, ?_, ?_⟩
  · intro rep e hrep he
    by_contra hfew
    rw [hrep] at hruns
    rcases hruns.done_cases with rfl | ⟨r, fault, -, -, hunsendable⟩
    · exact hR.calm (by omega) _ _ hstage ⟨e, he⟩
    · rw [hunsendable] at he
      cases he
  · rintro rfl hsendable rep hrep
    exact result_of_empty hsendable ht hrep

/-- an adopter creates the object of an installation, and a pipeline that loads it before its status was written leaves it
to the adopter -/
theorem adopter_and_pipeline_never_interfere_overtaken : ∃ ts S doc,
    Coexistence.Trace "syndesis" (beginning Adoption.installationContext 1 .empty) ts S ∧
      (∃ t ∈ ts, t.request.isWrite = true) ∧ (∀ t ∈ ts, t.request.isWrite = true → t.party = .adopter) ∧
      (∀ t ∈ ts, ¬ t.answer.Conflicts) ∧ S.objects = .singleton "app" doc ∧
      ∃ rep, S.pipeline = .done rep ∧ (rep.result = .ok .noResource ∨ rep.result = .ok .notEligible) := by
  obtain ⟨ts, S, doc, ht, hobjs, ⟨t, htmem, hparty, hw⟩, hrep⟩ := exists_overtakenAdoption
  have hsendable : Sendable Adoption.installationContext :=
    ⟨Request.fault?_of_names ⟨Adoption.isName_namespaceName, fun _ h => by cases h⟩,
      Request.fault?_of_names (hasNames_app .legacy rfl)⟩
  obtain ⟨⟨party, honly⟩, hanswers, -, -, hresult⟩ := adopter_and_pipeline_never_interfere
    (fun _ _ hd => by cases hd) (fun _ _ hd => by cases hd) ht
  obtain rfl : Party.adopter = party := hparty.symm.trans (honly t htmem hw)
  exact ⟨ts, S, doc, ht, ⟨t, htmem, hw⟩, honly, hanswers, hobjs, _, hrep, hresult rfl hsendable _ hrep⟩

end MigrationOperator
