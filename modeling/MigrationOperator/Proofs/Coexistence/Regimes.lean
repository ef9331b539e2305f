/-
Who may write, by what is stored.

Four stable regimes cover every store. While no single object states that it is installed, only the adopter writes
(`uninstalled`), and where the store was empty the pipeline does not fail on what it finds, either (`emerging`). While
the one object states that it is installed, only the pipeline writes (`installed`). Where there are several objects nobody
does (`crowd`). Neither party leaves its regime: an adoption does not state that it is installed, and a migration does not
state anything else.
-/
import MigrationOperator.Proofs.Coexistence.Adopter
import MigrationOperator.Proofs.Coexistence.Pipeline

namespace MigrationOperator

open Adoption (Alters Managed Pinned)

variable {c : Context} {objs objs' : StringMap Json} {a : Answer}

/-! ## Nothing is installed -/

/-- there is no object, or one that does not state that it is installed -/
inductive Uninstalled : StringMap Json → Prop where
  | empty : Uninstalled .empty
  | single {name revision : String} {doc : Json} (hstands : doc.Stands name (some revision))
    (hplain : doc.HasPlainStatus) (hphase : doc.statedPhase ≠ some "Installed") : Uninstalled (.singleton name doc)

namespace Uninstalled

theorem stored (h : Uninstalled objs) : Stored objs := by
  cases h with
  | empty => exact fun _ _ hd => by cases hd
  | single hstands _ _ => exact .singleton ⟨_, hstands⟩

theorem length_le_one (h : Uninstalled objs) : objs.entries.length ≤ 1 := by
  cases h with
  | empty => exact Nat.zero_le 1
  | single _ _ _ => exact Nat.le_refl 1

theorem phase (h : Uninstalled objs) {name : String} {doc : Json} (hdoc : objs.get? name = some doc) :
    doc.HasPlainStatus ∧ doc.statedPhase ≠ some "Installed" := by
  cases h with
  | empty => cases hdoc
  | single _ hplain hphase =>
    obtain ⟨-, rfl⟩ := StringMap.get?_singleton_eq_some.1 hdoc
    exact ⟨hplain, hphase⟩

/-- an adoption states a phase of its own -/
theorem alters (h : Uninstalled objs) (halters : Alters objs objs') : Uninstalled objs' := by
  cases halters with
  | same => exact h
  | created hstands _ _ hstatus =>
    refine .single hstands (Json.hasPlainStatus_of_absent hstatus) ?_
    rw [Json.statedPhase_of_absent hstatus]
    decide
  | @described s name revision patch doc doc' _ hpatched hpatch =>
    obtain ⟨hstated, hplain⟩ := hpatched.statedPhase hpatch (Adoption.find?_status s "phase") (by decide)
    refine .single hpatched.stands hplain ?_
    rw [hstated]
    decide

end Uninstalled

/-- the adopter writes, and the pipeline comes to nothing -/
def uninstalled (c : Context) : Regime where
  writer := .adopter
  store := Uninstalled
  adopter := Pinned c
  pipeline _ s := s.IsPreliminary ∧ ¬ s.Crowded

theorem stable_uninstalled (c : Context) : (uninstalled c).Stable c where
  adopter_start _ := trivial
  pipeline_start _ := ⟨trivial, id⟩
  adopter_step hstore hat hr hresponds := by
    obtain ⟨halters, hnext, ha⟩ := Pinned.step (Uninstalled.stored hstore) hat hr hresponds
    exact ⟨⟨Uninstalled.alters hstore halters, fun _ => rfl, ha⟩, hnext, fun _ hs => hs⟩
  pipeline_step {objs objs' stage r a} hstore hat hr hresponds := by
    obtain ⟨hprelim, hcalm⟩ := hat
    have hread := hprelim.isWrite hr
    have hcalm' := Pipeline.Stage.not_crowded_of_responds hcalm hr (Uninstalled.stored hstore)
      (Uninstalled.length_le_one hstore) hresponds
    refine ⟨Regime.permits_read hstore hresponds hread, ⟨?_, hcalm'⟩, fun _ hs => (hresponds.of_read hread).1 ▸ hs⟩
    cases stage with
    | listing => exact Pipeline.Stage.isPreliminary_next_listing a
    | loadingCanonical x => exact Pipeline.Stage.isPreliminary_next_loadingCanonical x a
    | loadingLegacy x =>
      obtain rfl := Option.some.inj hr
      exact Pipeline.isPreliminary_next_loadingLegacy (Uninstalled.stored hstore)
        (fun _ _ => Uninstalled.phase hstore) hresponds
    | finished rep => cases hr
    | _ => exact absurd hprelim id

/-! ## The store was empty -/

/-- an object as an adopter creates it, and describes it or not -/
structure Adoptee (doc : Json) : Prop where
  stands : ∃ revision, doc.Stands Canonical.defaultName (some revision)
  rereads : doc.Rereads
  spec : ∃ spec, doc.get? "spec" = some (Legacy.Spec.codec.write spec)
  status : doc.get? "status" = none ∨ ∃ s : Settings, doc.get? "status" = some (Status.codec.write s.status)

namespace Adoptee

variable {doc doc' : Json}

/-- an object that states no phase has no status yet, and gets one -/
theorem described {s : Settings} {name revision : String} {patch : Json} (h : Adoptee doc) (hphase : doc.statedPhase = none)
    (hpatched : Patched (.singleton name doc) name revision patch doc doc') (hname : name = Canonical.defaultName)
    (hpatch : patch.get? "status" = some (Status.codec.write s.status)) : Adoptee doc' := by
  obtain ⟨spec, hspec⟩ := h.spec
  refine ⟨⟨revision, hname ▸ hpatched.stands⟩, hpatched.rereads h.rereads, ⟨spec, hpatched.spec.trans hspec⟩, Or.inr ⟨s, ?_⟩⟩
  rcases h.status with hstatus | ⟨s', hstatus⟩
  · rw [hpatched.status, hpatch, hstatus]
    exact congrArg some (Adoption.merge_status s)
  · have hat : doc.at? ["status", "phase"] = some (.str "UpgradingLegacy") := by
      rw [Json.at?_status, hstatus]
      exact Adoption.find?_status s' "phase"
    rw [Json.statedPhase_of_at? hat (by decide)] at hphase
    cases hphase

/-- its status reads, and is not that of an installed object -/
theorem exists_takes (h : Adoptee doc) :
    ∃ status : Option Status, (Column.optional "status" Status.codec).Takes (doc.get? "status") status ∧
      ∀ s, status = some s → s.phase ≠ .installed := by
  rcases h.status with hstatus | ⟨s, hstatus⟩
  · exact ⟨none, by rw [hstatus]; rfl, fun _ hs => by cases hs⟩
  · have hphase : s.status.phase ≠ .installed := fun h => by cases h
    refine ⟨some s.status, ?_, fun _ hs => Option.some.inj hs ▸ hphase⟩
    rw [hstatus]
    exact Codec.nullable_keeps (Adoption.decode_status s) fun h => by cases h

/-- it is listed as a legacy object -/
theorem exists_classify (h : Adoptee doc) :
    ∃ d l, Opaque.codec.decode (Cluster.label .canonical doc) = .ok d ∧ classify d = .ok (.legacy l) ∧
      l.name = Canonical.defaultName := by
  obtain ⟨revision, hstands⟩ := h.stands
  obtain ⟨spec, hspec⟩ := h.spec
  obtain ⟨status, hstatus, -⟩ := h.exists_takes
  have hget : ∀ k, k ≠ "apiVersion" → (Cluster.label .canonical doc).get? k = doc.get? k :=
    fun k hk => hstands.get?_label .canonical hk
  obtain ⟨d, l, hd, hclass, hname, -⟩ := Pipeline.Source.exists_classify_of_written (hstands.label .canonical)
    (h.rereads.congr (hget _ (by decide))) ((hget _ (by decide)).trans hspec)
    ((hget "status" (by decide)).symm ▸ hstatus)
  exact ⟨d, l, hd, hclass, hname⟩

/-- and loaded as one that is not eligible yet -/
theorem exists_decode (h : Adoptee doc) :
    ∃ l, Legacy.kind.codec.decode doc = .ok l ∧ l.phase ≠ .installed := by
  obtain ⟨revision, hstands⟩ := h.stands
  obtain ⟨spec, hspec⟩ := h.spec
  obtain ⟨status, hstatus, hphase⟩ := h.exists_takes
  obtain ⟨md, m, hmd, hm, -⟩ := hstands.metadata
  refine ⟨_, Adoption.decode_of_get? hstands hmd hm hspec (Legacy.Spec.lawful_codec spec) hstatus, ?_⟩
  rw [Resource.phase]
  cases status with
  | none =>
    intro h
    cases h
  | some s => exact hphase s rfl

end Adoptee

/-- there is no object, or the one that an adopter is on its way to adopt or adopted -/
def Emerging (objs : StringMap Json) : Prop :=
  objs = .empty ∨ ∃ doc, objs = .singleton Canonical.defaultName doc ∧ Adoptee doc

namespace Emerging

theorem stored (h : Emerging objs) : Stored objs := by
  rcases h with rfl | ⟨doc, rfl, hdoc⟩
  · exact fun _ _ hd => by cases hd
  · exact .singleton hdoc.stands

/-- an adopter takes it further, and removes nothing -/
theorem alters (h : Emerging objs) (halters : Alters objs objs') : Emerging objs' ∧ (objs ≠ .empty → objs' ≠ .empty) := by
  cases halters with
  | same => exact ⟨h, id⟩
  | @created s revision doc hstands hrereads hspec hstatus =>
    exact ⟨Or.inr ⟨doc, rfl, ⟨revision, hstands⟩, hrereads, ⟨s.spec, hspec⟩, Or.inl hstatus⟩, fun hne => absurd rfl hne⟩
  | @described s name revision patch doc doc' hphase hpatched hpatch =>
    rcases h with hempty | ⟨doc₀, heq, hdoc⟩
    · cases hempty
    · have hget : (StringMap.singleton Canonical.defaultName doc₀).get? name = some doc :=
        heq ▸ StringMap.get?_singleton_self name doc
      obtain ⟨rfl, rfl⟩ := StringMap.get?_singleton_eq_some.1 hget
      exact ⟨Or.inr ⟨doc', rfl, hdoc.described hphase hpatched rfl hpatch⟩, fun _ h => by cases h⟩

end Emerging

namespace Pipeline

/-- a run that found nothing, or an object that is not eligible yet, so far -/
def Stage.Uneventful (objs : StringMap Json) : Stage → Prop
  | .listing => True
  | .loadingLegacy x => x.name = Canonical.defaultName ∧ objs ≠ .empty
  | .finished rep => rep.result = .ok .noResource ∨ rep.result = .ok .notEligible
  | _ => False

variable {ns : String} {doc : Json} {x : LegacyResource}

/-- the object of an adopter is listed as a legacy one -/
theorem exists_next_listing_adoptee (h : Adoptee doc)
    (hresponds : Responds ns (.singleton Canonical.defaultName doc) ⟨ns, .list⟩ a objs') :
    ∃ x, x.name = Canonical.defaultName ∧ Stage.listing.next a = .loadingLegacy x := by
  obtain ⟨l, hl, hds⟩ := hresponds.exists_listing (.singleton h.stands)
  obtain ⟨d, x, hd, hclass, hname⟩ := h.exists_classify
  obtain ⟨d', ds, hd', hds', hitems⟩ := List.forall₂_cons_left_iff.1 hds
  obtain rfl := Except.ok.inj (hd.symm.trans hd')
  refine ⟨x, hname, ?_⟩
  rw [Stage.next, hl]
  dsimp only
  rw [hitems, List.forall₂_nil_left_iff.1 hds', Candidates.classifyAll_singleton, hclass]
  rfl

/-- and loaded as one that is not eligible -/
theorem next_loadingLegacy_adoptee (h : Adoptee doc) (hname : x.name = Canonical.defaultName)
    (hresponds : Responds ns (.singleton Canonical.defaultName doc) ⟨ns, .read .legacy x.name⟩ a objs') :
    (Stage.loadingLegacy x).next a = .finished ⟨some ⟨1, 0⟩, .ok .notEligible⟩ := by
  rcases hresponds.read_cases with ⟨found, hfound, ha⟩ | ⟨hnone, -⟩
  · obtain ⟨-, rfl⟩ := StringMap.get?_singleton_eq_some.1 hfound
    obtain ⟨revision, hstands⟩ := h.stands
    obtain ⟨l, hl, hphase⟩ := h.exists_decode
    have hread := (ha.decode_ok_iff Legacy.kind.codec).2 ((hstands.decode_label_iff _).2 hl)
    rw [Stage.next, hread]
    exact if_neg hphase
  · rw [hname, StringMap.get?_singleton_self] at hnone
    cases hnone

/-- a run that lists nothing is over, and one that lists the object loads it -/
theorem uneventful_next_listing (h : Emerging objs) (hresponds : Responds ns objs ⟨ns, .list⟩ a objs') :
    (Stage.listing.next a).Uneventful objs := by
  rcases h with rfl | ⟨doc, rfl, hdoc⟩
  · obtain ⟨l, hl, hds⟩ := hresponds.exists_listing fun _ _ hd => by cases hd
    rw [Stage.next, hl]
    dsimp only
    rw [List.forall₂_nil_left_iff.1 hds]
    exact Or.inl rfl
  · obtain ⟨x, hname, hnext⟩ := exists_next_listing_adoptee hdoc hresponds
    rw [hnext]
    exact ⟨hname, fun h => by cases h⟩

theorem uneventful_next_loadingLegacy (h : Emerging objs) (hx : (Stage.loadingLegacy x).Uneventful objs)
    (hresponds : Responds ns objs ⟨ns, .read .legacy x.name⟩ a objs') :
    ((Stage.loadingLegacy x).next a).Uneventful objs := by
  obtain ⟨hname, hne⟩ := hx
  obtain ⟨doc, rfl, hdoc⟩ := h.resolve_left hne
  rw [next_loadingLegacy_adoptee hdoc hname hresponds]
  exact Or.inr rfl

end Pipeline

/-- the adopter writes, and the pipeline comes to one of two ends -/
def emerging (c : Context) : Regime where
  writer := .adopter
  store := Emerging
  adopter := Pinned c
  pipeline objs s := s.Uneventful objs

theorem stable_emerging (c : Context) : (emerging c).Stable c where
  adopter_start _ := trivial
  pipeline_start _ := trivial
  adopter_step {objs objs' stage r a} hstore hat hr hresponds := by
    obtain ⟨halters, hnext, ha⟩ := Pinned.step (Emerging.stored hstore) hat hr hresponds
    obtain ⟨hstore', hne⟩ := Emerging.alters hstore halters
    refine ⟨⟨hstore', fun _ => rfl, ha⟩, hnext, fun s hs => ?_⟩
    cases s with
    | loadingLegacy x => exact ⟨hs.1, hne hs.2⟩
    | listing => trivial
    | finished rep => exact hs
    | _ => exact absurd hs id
  pipeline_step {objs objs' stage r a} hstore hat hr hresponds := by
    cases stage with
    | listing =>
      obtain rfl := Option.some.inj hr
      obtain ⟨rfl, -⟩ := hresponds.of_read rfl
      exact ⟨Regime.permits_read hstore hresponds rfl, Pipeline.uneventful_next_listing hstore hresponds, fun _ hs => hs⟩
    | loadingLegacy x =>
      obtain rfl := Option.some.inj hr
      obtain ⟨rfl, -⟩ := hresponds.of_read rfl
      exact ⟨Regime.permits_read hstore hresponds rfl, Pipeline.uneventful_next_loadingLegacy hstore hat hresponds,
        fun _ hs => hs⟩
    | finished rep => cases hr
    | _ => exact absurd hat id

/-! ## One object is installed -/

/-- the pipeline writes, and the adopter stays idle -/
def installed : Regime where
  writer := .pipeline
  store := Pipeline.Installed
  adopter _ s := s.Idle
  pipeline objs s := s.Poised objs ∧ ¬ s.Crowded

/-- an installed object is not taken for an unfinished one -/
theorem Pipeline.Installed.managed (h : Pipeline.Installed objs) : Managed objs := by
  cases h with
  | @single name revision doc hstands hphase =>
    intro ds hds
    obtain ⟨d, ds', hd, hds', rfl⟩ := List.forall₂_cons_left_iff.1 hds
    refine ⟨List.cons_ne_nil d ds', fun expected => ?_⟩
    cases hfound : Adoption.unfinished? (d :: ds') expected with
    | none => rfl
    | some pending =>
      obtain ⟨x, found, hx, -, hnone, -⟩ := Adoption.exists_of_unfinished hfound
      obtain ⟨rfl, -⟩ := List.cons.inj hx
      rw [hstands.statedPhase_listed hd, hphase] at hnone
      cases hnone

/-- one request of the pipeline -/
theorem Pipeline.Stage.Poised.step {stage : Pipeline.Stage} {r : Request} (h : stage.Poised objs)
    (hstore : Pipeline.Installed objs) (hr : stage.request? c = some r)
    (hresponds : Responds c.namespaceName objs r a objs') :
    Pipeline.Installed objs' ∧ (stage.next a).Poised objs' ∧ ¬ a.Conflicts := by
  cases stage with
  | listing =>
    obtain rfl := Option.some.inj hr
    obtain ⟨rfl, ha⟩ := hresponds.of_read rfl
    exact ⟨hstore, (Pipeline.Stage.isPreliminary_next_listing a).poised, ha⟩
  | loadingCanonical x =>
    obtain rfl := Option.some.inj hr
    obtain ⟨rfl, ha⟩ := hresponds.of_read rfl
    exact ⟨hstore, (Pipeline.Stage.isPreliminary_next_loadingCanonical x a).poised, ha⟩
  | loadingLegacy x =>
    obtain rfl := Option.some.inj hr
    obtain ⟨rfl, ha⟩ := hresponds.of_read rfl
    exact ⟨hstore, hstore.poised_next_loadingLegacy hresponds, ha⟩
  | patching l =>
    obtain rfl := Option.some.inj hr
    exact Pipeline.Current.patch_step h hresponds
  | replacing l pin =>
    obtain rfl := Option.some.inj hr
    exact Pipeline.Current.replace_step h hresponds
  | finished rep => cases hr
  | _ => exact absurd h id

theorem stable_installed (c : Context) : installed.Stable c where
  adopter_start _ := trivial
  pipeline_start _ := ⟨trivial, id⟩
  adopter_step {objs objs' stage r a} hstore hat hr hresponds := by
    have hread := Adoption.Stage.Idle.isWrite hat hr
    exact ⟨Regime.permits_read hstore hresponds hread,
      Adoption.Stage.Idle.next hat (Pipeline.Installed.stored hstore) (Pipeline.Installed.managed hstore) hr hresponds,
      fun _ hs => (hresponds.of_read hread).1 ▸ hs⟩
  pipeline_step {objs objs' stage r a} hstore hat hr hresponds := by
    obtain ⟨hpoised, hcalm⟩ := hat
    obtain ⟨hstore', hnext, ha⟩ := hpoised.step hstore hr hresponds
    have hcalm' := Pipeline.Stage.not_crowded_of_responds hcalm hr (Pipeline.Installed.stored hstore)
      (Pipeline.Installed.length_le_one hstore) hresponds
    exact ⟨⟨hstore', fun _ => rfl, ha⟩, ⟨hnext, hcalm'⟩, fun _ hs => hs⟩

/-! ## Several objects -/

/-- these objects stay as they are -/
def crowd (objs : StringMap Json) : Regime where
  writer := .pipeline
  store := (· = objs)
  adopter _ s := s.Idle
  pipeline _ s := s = .listing ∨ ∃ rep, s = .finished rep

theorem managed_of_length (h : 2 ≤ objs.entries.length) : Managed objs := by
  intro ds hds
  have hlength : 2 ≤ ds.length := by
    rw [← hds.length_eq, StringMap.values, List.length_map]
    exact h
  refine ⟨by rintro rfl; exact absurd hlength (by decide), fun expected => ?_⟩
  cases hfound : Adoption.unfinished? ds expected with
  | none => rfl
  | some pending =>
    obtain ⟨x, found, rfl, -⟩ := Adoption.exists_of_unfinished hfound
    exact absurd hlength (by simp)

theorem stable_crowd (c : Context) (hstored : Stored objs) (h : 2 ≤ objs.entries.length) : (crowd objs).Stable c where
  adopter_start _ := trivial
  pipeline_start _ := Or.inl rfl
  adopter_step {objs₁ objs' stage r a} hstore hat hr hresponds := by
    obtain rfl : objs₁ = objs := hstore
    have hread := Adoption.Stage.Idle.isWrite hat hr
    exact ⟨Regime.permits_read rfl hresponds hread,
      Adoption.Stage.Idle.next hat hstored (managed_of_length h) hr hresponds, fun _ hs => hs⟩
  pipeline_step {objs₁ objs' stage r a} hstore hat hr hresponds := by
    obtain rfl : objs₁ = objs := hstore
    rcases hat with rfl | ⟨rep, rfl⟩
    · obtain rfl := Option.some.inj hr
      refine ⟨Regime.permits_read rfl hresponds rfl, Or.inr ?_, fun _ hs => hs⟩
      obtain ⟨l, hl, hds⟩ := hresponds.exists_listing hstored
      have hlength : 2 ≤ l.items.length := by
        rw [← hds.length_eq, StringMap.values, List.length_map]
        exact h
      rw [Pipeline.Stage.next, hl]
      -- a run goes on only with a single object
      have hsingle : ∀ k, Candidates.classifyAll l.items ≠ .ok [k] := by
        intro k hk
        obtain ⟨d, hitems, -⟩ := Pipeline.exists_of_classifyAll_eq_singleton hk
        rw [hitems] at hlength
        exact absurd hlength (by simp)
      rcases Pipeline.Stage.exists_afterListing_eq (Candidates.classifyAll l.items) with ⟨x, hx, -⟩ | ⟨x, hx, -⟩ | hfinished
      · exact absurd hx (hsingle _)
      · exact absurd hx (hsingle _)
      · exact hfinished
    · cases hr

end MigrationOperator
