/-
What the pipeline overwrites.

A run decides on the object that it listed and writes back the one that it loaded, and between the two requests the object
may change. `write_follows_loading` says, for every conversation, what a run has seen by the time it writes: it listed
exactly one object, which was classified as legacy, and then loaded an installed one that decodes as legacy. What was
loaded is not classified again. So a canonical resource as it is written is safe, and so is every document that the
canonical schema refuses; a canonical document without a member of its own schema is not, when it replaces a legacy one
after the listing (`exists_overwritten_canonical`).
-/
import MigrationOperator.Proofs.Pipeline.Conversation
import MigrationOperator.Proofs.Pipeline.OnCluster

namespace MigrationOperator.Pipeline

variable {c : Context} {es : List Exchange} {l : LegacyResource} {r : Request}

/-! ## How a loaded document is classified -/

/-- a document that decodes as legacy and not as canonical is classified as legacy -/
theorem exists_classify_legacy {j : Json} {name : String} {revision : Option String} (h : j.Stands name revision)
    (hr : j.Rereads) (hl : Legacy.kind.codec.decode j = .ok l) (hc : ∀ y, Canonical.kind.codec.decode j ≠ .ok y) :
    ∃ d z, Opaque.codec.decode j = .ok d ∧ classify d = .ok (.legacy z) := by
  obtain ⟨d, hd, hwrite⟩ := h.exists_decode_write hr
  obtain ⟨z, hz, -⟩ := (hwrite Legacy.kind).2 l hl
  refine ⟨d, z, hd, ?_⟩
  cases hy : Canonical.kind.codec.decode d.write with
  | ok y =>
    obtain ⟨-, m, hm⟩ := (hwrite Canonical.kind).1 y hy
    exact absurd hm (hc _)
  | error e => rw [classify, classifyJson, hy, hz]

/-- one that decodes as canonical is classified as canonical, whatever the legacy schema says -/
theorem exists_classify_canonical {j : Json} {name : String} {revision : Option String} (h : j.Stands name revision)
    (hr : j.Rereads) {y : CanonicalResource} (hy : Canonical.kind.codec.decode j = .ok y) :
    ∃ d z, Opaque.codec.decode j = .ok d ∧ classify d = .ok (.canonical z) ∧ z.spec = y.spec := by
  obtain ⟨d, hd, hwrite⟩ := h.exists_decode_write hr
  obtain ⟨z, hz, -⟩ := (hwrite Canonical.kind).2 y hy
  obtain ⟨-, m, hm⟩ := (hwrite Canonical.kind).1 z hz
  have heq : { z with metadata := m } = y := Except.ok.inj (hm.symm.trans hy)
  exact ⟨d, z, hd, by rw [classify, classifyJson, hz], by rw [← heq]⟩

/-- **A run writes over what it loaded as legacy.** Whatever the cluster answers, a run that is about to write listed
exactly one object, which was classified as legacy, then loaded an installed legacy object, and writes that one back.
What was loaded is not the document of a canonical resource as it is written, and unless the canonical schema accepts
it, it is classified as legacy, too. -/
theorem write_follows_loading {next : Answer → Program (Report Outcome)} (h : (run c).Reaches es (.send r next))
    (hw : r.isWrite = true) :
    ∃ x l listed loaded rest, es = ⟨⟨c.namespaceName, .list⟩, listed⟩ ::
        ⟨⟨c.namespaceName, .read .legacy x.name⟩, loaded⟩ :: rest ∧
      Lists listed x ∧ Action.decode Legacy.kind.codec loaded = .ok l ∧ l.phase = .installed ∧ WritesBack c l r ∧
      (∀ (y : CanonicalResource) (others : List (String × Json)), (∀ e ∈ others, e.1 ∉ Kind.parts) →
        ¬ loaded.Carries ((Canonical.kind.write y).dress others)) ∧
      ∀ (j : Json) (name : String) (revision : Option String), loaded.Carries j → j.Stands name revision → j.Rereads →
        (∀ y, Canonical.kind.codec.decode j ≠ .ok y) →
        ∃ d z, Opaque.codec.decode j = .ok d ∧ classify d = .ok (.legacy z) := by
  obtain ⟨l, hsighted, hback⟩ := exists_sighted h hw
  obtain ⟨x, listed, loaded, rest, hes, hlists, hl, hphase⟩ := hsighted.conversation
  refine ⟨x, l, listed, loaded, rest, hes, hlists, hl, hphase, hback, ?_, ?_⟩
  · intro y others hothers hcarries
    exact Legacy.decode_dress_canonical_ne hothers y l ((hcarries.decode_ok_iff Legacy.kind.codec).1 hl)
  · intro j name revision hcarries hstands hrereads hrefused
    exact exists_classify_legacy hstands hrereads ((hcarries.decode_ok_iff Legacy.kind.codec).1 hl) hrefused

/-! ## A run that writes -/

/-- a run asks for the object that it listed, and when that is installed, patches it -/
theorem exists_reaches_patch {x : LegacyResource} {listed loaded : Answer} (hlisted : Lists listed x)
    (hloaded : Action.decode Legacy.kind.codec loaded = .ok l) (hphase : l.phase = .installed) {revision : String}
    (hrevision : l.metadata.resourceVersion = some revision) (hnamespace : IsName c.namespaceName)
    (hx : IsName x.name) (hl : IsName (successor c l).name) :
    ∃ next, (run c).Reaches [⟨⟨c.namespaceName, .list⟩, listed⟩, ⟨⟨c.namespaceName, .read .legacy x.name⟩, loaded⟩]
      (.send (patchRequest c l) next) := by
  obtain ⟨list, d, hlist, hitems, hd⟩ := hlisted
  have hlisting : Stage.listing.next listed = .loadingLegacy x := by
    rw [Stage.next, hlist]
    dsimp only
    rw [hitems, Candidates.classifyAll_singleton, hd]
    rfl
  have hloading : (Stage.loadingLegacy x).next loaded = .patching l := by
    rw [Stage.next, hloaded]
    exact Stage.afterLoading_eq_patching hphase hrevision
  obtain ⟨next₁, hsend₁, hnext₁⟩ := (runs_run c).exists_send rfl ⟨hnamespace, fun _ h => by cases h⟩
  have hruns₁ := hnext₁ listed
  rw [hlisting] at hruns₁
  obtain ⟨next₂, hsend₂, hnext₂⟩ := hruns₁.exists_send rfl
    ⟨hnamespace, fun n hn => Option.some.inj hn ▸ hx⟩
  have hruns₂ := hnext₂ loaded
  rw [hloading] at hruns₂
  obtain ⟨next₃, hsend₃, -⟩ := hruns₂.exists_send rfl
    ⟨hnamespace, fun n hn => Option.some.inj hn ▸ hl⟩
  refine ⟨next₃, ?_⟩
  rw [hsend₁]
  refine .ask ?_
  rw [hsend₂]
  refine .ask ?_
  rw [hsend₃]
  exact .start _

/-- the installation with another spec in its document -/
def respecified (spec : Json) : Json := (Legacy.kind.write installation).set "spec" spec

theorem get?_respecified {spec : Json} {k : String} (hk : k ≠ "spec") :
    (respecified spec).get? k = (Legacy.kind.write installation).get? k := by
  obtain ⟨ms, hms, -⟩ := stands_installation.exists_obj
  rw [respecified, hms, Json.get?_set_obj, if_neg hk]

theorem get?_spec_respecified (spec : Json) : (respecified spec).get? "spec" = some spec := by
  obtain ⟨ms, hms, -⟩ := stands_installation.exists_obj
  rw [respecified, hms, Json.get?_set_obj, if_pos rfl]

theorem stands_respecified {spec : Json} (h : spec.Normal) : (respecified spec).Stands "app" (some "1") :=
  stands_installation.congr (Json.normal_set _ stands_installation.normal h) (get?_respecified (by decide))

theorem rereads_respecified (spec : Json) : (respecified spec).Rereads := by
  have hkeeps := Metadata.codec_keeps_identity (some "app") none (some "1")
  intro md m hmd hm
  rw [get?_respecified (by decide), Json.get?, Entries.find?_eq_head?,
    (Legacy.kind.shows_write installation).metadata] at hmd
  obtain rfl := Option.some.inj hmd
  obtain rfl := Except.ok.inj (hkeeps.symm.trans hm)
  exact ⟨_, hkeeps⟩

/-- it decodes under a schema when its spec does -/
theorem decode_respecified {σ : Type} {k : Kind σ} {spec : Json} {x : σ} (hnormal : spec.Normal)
    (h : k.spec.decode spec = .ok x) :
    k.codec.decode (respecified spec) = .ok ⟨installation.metadata, x, installation.status⟩ := by
  rw [(stands_respecified hnormal).decode_iff]
  refine ⟨?_, ?_, ?_⟩
  · rw [get?_respecified (by decide), Json.get?, Entries.find?_eq_head?,
      (Legacy.kind.shows_write installation).metadata]
    exact Metadata.codec_keeps_identity (some "app") none (some "1")
  · rw [get?_spec_respecified]
    exact h
  · rw [get?_respecified (by decide), get?_status_installation]
    rfl

/-- a run that lists the installation, loads it with another spec that decodes as legacy, and is about to patch it -/
theorem exists_reaches_patch_respecified {spec : Json} {old : Legacy.Spec} (hnormal : spec.Normal)
    (h : Legacy.Spec.codec.decode spec = .ok old) :
    ∃ listed next, (run installationContext).Reaches [⟨⟨"syndesis", .list⟩, listed⟩,
      ⟨⟨"syndesis", .read .legacy "app"⟩, .ofJson 200 (respecified spec)⟩]
      (.send (patchRequest installationContext ⟨installation.metadata, old, installation.status⟩) next) := by
  obtain ⟨d, hd, hclass⟩ := exists_classify_installation
  let listed := Answer.ofJson 200 (Cluster.listing "1" [Legacy.kind.write installation])
  have hcarries : listed.Carries (Cluster.listing "1" [Legacy.kind.write installation]) := ⟨200, _, rfl, rfl⟩
  have hlisted : Lists listed installation :=
    ⟨_, d, (hcarries.decode_ok_iff ObjectList.codec).2 (Json.decode_listing hd "1"), rfl, hclass⟩
  have hloaded : (Answer.ofJson 200 (respecified spec)).Carries (respecified spec) := ⟨200, _, rfl, rfl⟩
  have hread := (hloaded.decode_ok_iff Legacy.kind.codec).2 (decode_respecified (k := Legacy.kind) hnormal h)
  obtain ⟨next, hreach⟩ := exists_reaches_patch (c := installationContext) hlisted hread rfl rfl isName_syndesis
    isName_app isName_app
  exact ⟨listed, next, hreach⟩

/-- a spec that only the legacy schema accepts -/
def legacySpec : Json := .obj [("integration", .obj [])]

/-- a spec that both schemas accept, and that means more under the canonical one -/
def sharedSpec : Json := .obj [("addons", .obj [("jaeger", .obj [("queryUri", .str "http://jaeger")])])]

theorem write_follows_loading_installation : ∃ es r next,
    (run installationContext).Reaches es (.send r next) ∧ r.isWrite = true ∧
      ∃ loaded, ⟨⟨"syndesis", .read .legacy "app"⟩, loaded⟩ ∈ es ∧ loaded.Carries (respecified legacySpec) ∧
        ∃ d z, Opaque.codec.decode (respecified legacySpec) = .ok d ∧ classify d = .ok (.legacy z) := by
  have hnormal : legacySpec.Normal := by simp [legacySpec, Json.Normal, Json.NormalMembers, Entries.Ordered]
  obtain ⟨listed, next, hreach⟩ := exists_reaches_patch_respecified hnormal rfl
  have hcarries : (Answer.ofJson 200 (respecified legacySpec)).Carries (respecified legacySpec) := ⟨200, _, rfl, rfl⟩
  refine ⟨_, _, next, hreach, rfl, _, List.mem_cons_of_mem _ List.mem_cons_self, hcarries, ?_⟩
  obtain ⟨x, l, listed', loaded, rest, hes, -, -, -, -, -, hclass⟩ := write_follows_loading hreach rfl
  obtain ⟨-, hrest⟩ := List.cons.inj hes
  obtain ⟨hloaded, -⟩ := List.cons.inj hrest
  obtain ⟨-, rfl⟩ := Exchange.mk.inj hloaded
  refine hclass _ "app" (some "1") hcarries (stands_respecified hnormal) (rereads_respecified _) fun y hy => ?_
  obtain ⟨s, hs, hspec⟩ := (stands_respecified hnormal).exists_spec hy
  obtain rfl := Option.some.inj ((get?_spec_respecified _).symm.trans hs)
  cases hspec

/-- **A canonical document can be written over.** A run lists a legacy object, which is then rewritten with a spec that
both schemas accept. What the run loads is classified as canonical, and the run writes back a resource without the
settings of it that only the canonical schema knows. -/
theorem exists_overwritten_canonical : ∃ es l next loaded j d z,
    (run installationContext).Reaches es (.send (patchRequest installationContext l) next) ∧
      (patchRequest installationContext l).isWrite = true ∧
      ⟨⟨"syndesis", .read .legacy "app"⟩, loaded⟩ ∈ es ∧ loaded.Carries j ∧
      Opaque.codec.decode j = .ok d ∧ classify d = .ok (.canonical z) ∧
      z.spec.addons.jaeger.queryUri = "http://jaeger" ∧
      (successor installationContext l).spec.addons.jaeger.queryUri = "" := by
  have hnormal : sharedSpec.Normal := by simp [sharedSpec, Json.Normal, Json.NormalMembers, Entries.Ordered]
  obtain ⟨listed, next, hreach⟩ := exists_reaches_patch_respecified hnormal rfl
  have hcarries : (Answer.ofJson 200 (respecified sharedSpec)).Carries (respecified sharedSpec) := ⟨200, _, rfl, rfl⟩
  obtain ⟨d, z, hd, hclass, hz⟩ := exists_classify_canonical (stands_respecified hnormal)
    (rereads_respecified sharedSpec) (decode_respecified (k := Canonical.kind) hnormal rfl)
  refine ⟨_, _, next, _, _, d, z, hreach, rfl, List.mem_cons_of_mem _ List.mem_cons_self, hcarries, hd, hclass, ?_, ?_⟩
  · rw [hz]
  · rfl

end MigrationOperator.Pipeline
