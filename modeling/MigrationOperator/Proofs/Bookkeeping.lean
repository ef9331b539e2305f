/-
The rest of a status survives.

A status is written as a merge patch, and what is not set is not written. So a patch names the members that are set and no
others (`Confined`), and all others of the status that it is merged into stay: upgrade attempts, the last failure, the
backup, and members that this operator does not know. `status_bookkeeping_survives` says which members the patches of a
migration and of an adoption name, what a migration leaves of the status that it found, and that a store that serves a
patch of an adoption changes nothing else of what is stored.
-/
import MigrationOperator.Proofs.Adoption.Object
import MigrationOperator.Proofs.Pipeline.Conversation
import MigrationOperator.Proofs.Pipeline.OnCluster

namespace MigrationOperator

variable {keys : List String} {patch : Json} {objs objs' : StringMap Json} {a : Answer} {w : Option Write}

/-! ## Patches that name a few members -/

/-- the status that a patch carries has no members besides these -/
structure Confined (keys : List String) (patch : Json) : Prop where
  normal : patch.Normal
  members : ∃ ps, patch.get? "status" = some (.obj ps) ∧ ∀ k, k ∉ keys → Entries.find? k ps = none

/-- the other members of a status are as they were before the patch -/
theorem Confined.get?_mergePatch (h : Confined keys patch) (status : Json) {k : String} (hk : k ∉ keys) :
    (Json.mergePatch (.ofOption (patch.get? "status")) status).get? k = status.get? k := by
  obtain ⟨ps, hps, hnone⟩ := h.members
  have hordered : Entries.Ordered ps := (h.normal.get? hps).1
  rw [hps]
  show (Json.mergePatch (.obj ps) status).get? k = _
  rw [Json.get?_mergePatch_obj hordered, hnone k hk]

/-- whatever is stored is still there, with its spec and with all other members of its status -/
def Retains (keys : List String) (objs objs' : StringMap Json) : Prop :=
  ∀ name doc, objs.get? name = some doc → ∃ doc', objs'.get? name = some doc' ∧
    doc'.get? "spec" = doc.get? "spec" ∧ ∀ k, k ∉ keys → doc'.at? ["status", k] = doc.at? ["status", k]

/-- a store that serves such a patch retains the rest -/
theorem Confined.retains {v : SchemaVersion} {name : String} (h : Confined keys patch)
    (hs : Serves objs (.patchStatus v name patch) a w objs') : Retains keys objs objs' := by
  rcases hs.patch_cases with ⟨found, left, revision, -, rfl, hpatched, -⟩ | ⟨-, rfl, -, -⟩
  · intro n doc hdoc
    by_cases hn : n = name
    · subst hn
      obtain rfl := Option.some.inj (hpatched.found.symm.trans hdoc)
      refine ⟨left, StringMap.get?_insert_self _ _ _, hpatched.spec, fun k hk => ?_⟩
      rw [Json.at?_status, Json.at?_status, hpatched.status]
      exact h.get?_mergePatch _ hk
    · exact ⟨doc, by rw [StringMap.get?_insert, if_neg hn, hdoc], rfl, fun _ _ => rfl⟩
  · exact fun n doc hdoc => ⟨doc, hdoc, rfl, fun _ _ => rfl⟩

/-! ## The patch of a migration -/

namespace Pipeline

/-- a status that says that its object was migrated, and that is otherwise the one that was there before -/
structure SaysMigrated (before after : List (String × Json)) : Prop where
  phase : Entries.find? "phase" after = some (.str "Installed")
  reason : Entries.find? "reason" after = some (.str "Migrated")
  description : Entries.find? "description" after =
    some (.str "App migrated from syndesis.io/v1alpha1 to syndesis.io/v1beta1")
  version : Entries.find? "version" after = Entries.find? "version" before
  others : ∀ k, k ∉ ["phase", "reason", "description"] → Entries.find? k after = Entries.find? k before

theorem confined_statusPatch_note (revision : Option String) (old : Option Status) :
    Confined ["phase", "reason", "description", "version"] (Writing.statusPatch revision (Migration.status old none)) := by
  refine ⟨normal_statusPatch _ _, (Migration.note old).members, get?_status_statusPatch _ _, fun k hk => ?_⟩
  simp only [List.mem_cons, List.not_mem_nil, or_false, not_or] at hk
  obtain ⟨hphase, hreason, hdescription, hversion⟩ := hk
  rw [Migration.find?_note, if_neg hphase, if_neg hreason, if_neg hdescription, if_neg fun h => hversion h.1]

/-- what a migration notes of the status that it read says so once it is merged into that status -/
theorem exists_saysMigrated {ms : List (String × Json)} {s : Status} (hms : (Json.obj ms).Normal)
    (h : Status.codec.decode (.obj ms) = .ok s) :
    ∃ ws, Json.mergePatch (Migration.note (some s)) (.obj ms) = .obj ws ∧ SaysMigrated ms ws := by
  obtain ⟨ws, hws, -⟩ := Migration.exists_merged_eq (some s) hms
  have hnoted : ∀ k, Entries.find? k ws =
      (Entries.find? k (Migration.note (some s)).members).or (Entries.find? k ms) := by
    intro k
    rw [← Migration.get?_merged, hws]
    rfl
  have hothers : ∀ k, k ∉ ["phase", "reason", "description"] → Entries.find? k ws = Entries.find? k ms := by
    intro k hk
    rw [← Migration.get?_merged_of_decode hms.1 h hk, hws]
    rfl
  refine ⟨ws, hws, ?_, ?_, ?_, hothers _ (by decide), hothers⟩
  · rw [hnoted, Migration.find?_note]
    rfl
  · rw [hnoted, Migration.find?_note]
    rfl
  · rw [hnoted, Migration.find?_note]
    rfl

/-- a status patch of a run is what a migration of the loaded object notes -/
theorem exists_statusPatch_of_reaches {c : Context} {es : List Exchange} {r : Request}
    {next : Answer → Program (Report Outcome)} {v : SchemaVersion} {name : String}
    (h : (run c).Reaches es (.send r next)) (hcall : r.call = .patchStatus v name patch) :
    ∃ l n loaded revision, (⟨⟨c.namespaceName, .read .legacy n⟩, loaded⟩ : Exchange) ∈ es ∧
      Action.decode Legacy.kind.codec loaded = .ok l ∧
      patch = Writing.statusPatch revision (Migration.status l.status none) := by
  have hw : r.isWrite = true := by rw [Request.isWrite, hcall]; rfl
  obtain ⟨l, hsighted, hback⟩ := exists_sighted h hw
  obtain ⟨x, listed, loaded, rest, rfl, -, hl, -⟩ := hsighted.conversation
  refine ⟨l, x.name, loaded, ?_⟩
  cases hback with
  | patch revision =>
    obtain ⟨-, -, rfl⟩ := Call.patchStatus.inj hcall
    exact ⟨revision, List.mem_cons_of_mem _ List.mem_cons_self, hl, rfl⟩
  | replace revision => cases hcall
  | create => cases hcall

end Pipeline

/-! ## The patch of an adoption -/

namespace Adoption

theorem confined_statusPatch (revision : Option String) (s : Settings) :
    Confined ["phase", "reason", "version"] (Writing.statusPatch revision s.status) := by
  refine ⟨Pipeline.normal_statusPatch _ _, (Status.codec.write s.status).members, Pipeline.get?_status_statusPatch _ _,
    fun k hk => ?_⟩
  simp only [List.mem_cons, List.not_mem_nil, or_false, not_or] at hk
  obtain ⟨hphase, hreason, hversion⟩ := hk
  rw [find?_status, if_neg hphase, if_neg hreason, if_neg fun h => hversion h.1]

/-- a status patch of an attempt is the status of an installation, for an object that was created or resumed -/
theorem exists_statusPatch_of_reaches {c : Context} {es : List Exchange} {r : Request}
    {next : Answer → Program (Except OperatorError Adoption)} {v : SchemaVersion} {name : String}
    (h : (attempt c).run.Reaches es (.send r next)) (hcall : r.call = .patchStatus v name patch) :
    ∃ revision s, patch = Writing.statusPatch revision (Settings.status s) := by
  obtain ⟨stage, hruns⟩ := (runs_attempt c).of_reaches h
  obtain ⟨hr, -⟩ := hruns.of_send
  cases stage with
  | describing s created =>
    obtain rfl := Option.some.inj hr
    obtain ⟨-, -, rfl⟩ := Call.patchStatus.inj hcall
    exact ⟨_, s, rfl⟩
  | resuming s pending =>
    obtain rfl := Option.some.inj hr
    obtain ⟨-, -, rfl⟩ := Call.patchStatus.inj hcall
    exact ⟨_, s, rfl⟩
  | finished result => cases hr
  | _ =>
    obtain rfl := Option.some.inj hr
    cases hcall

end Adoption

/-! ## Both -/

/-- **Status members that are not written survive.** A stored object is classified as legacy and installed, and its status
is an object with any members. Whenever a run that loaded it sends a status patch, that patch names phase, reason,
description and version at most, and merged into the stored status it says that the object was migrated and leaves
everything else, the version included, as it was; this is what a run without faults leaves in any store. A status patch of
an attempt at adoption names phase, reason and version at most, so that a store that serves it retains everything else. -/
theorem status_bookkeeping_survives {doc : Json} {name revision : String} {d : Opaque} {l : LegacyResource}
    {ms : List (String × Json)} (hstands : doc.Stands name (some revision)) (hd : Opaque.codec.decode doc = .ok d)
    (hclass : classify d = .ok (.legacy l)) (hphase : l.phase = .installed)
    (hstatus : doc.get? "status" = some (.obj ms)) :
    (∀ (c : Context) (es : List Exchange) (r : Request) (next : Answer → Program (Pipeline.Report Pipeline.Outcome))
        (v : SchemaVersion) (n : String) (patch : Json),
        (Pipeline.run c).Reaches es (.send r next) → r.call = .patchStatus v n patch →
        (∀ e ∈ es, ∀ v n, e.request.call = .read v n → e.answer.Carries (Cluster.label v doc)) →
        Confined ["phase", "reason", "description", "version"] patch ∧
          ∃ ws, Json.mergePatch (.ofOption (patch.get? "status")) (.obj ms) = .obj ws ∧ Pipeline.SaysMigrated ms ws) ∧
      (∀ (σ : Type) (ns : String) (store : Store ns σ) (s : σ) (c : Context), store.objects s = .singleton name doc →
        c.namespaceName = ns → IsName ns → IsName name →
        ∃ x doc' ws, ((Pipeline.run c).exec store.serve s).result.result = .ok (.migrated x) ∧
          store.objects ((Pipeline.run c).exec store.serve s).server = .singleton name doc' ∧
          doc'.get? "status" = some (.obj ws) ∧ Pipeline.SaysMigrated ms ws) ∧
      ∀ (c : Context) (es : List Exchange) (r : Request) (next : Answer → Program (Except OperatorError Adoption))
        (v : SchemaVersion) (n : String) (patch : Json),
        (Adoption.attempt c).run.Reaches es (.send r next) → r.call = .patchStatus v n patch →
        Confined ["phase", "reason", "version"] patch ∧
          ∀ objs a w objs', Serves objs r.call a w objs' → Retains ["phase", "reason", "version"] objs objs' := by
  refine ⟨fun c es r next v n patch hreach hcall hloads => ?_, fun σ ns store s c hobjects hns hnamespace hname => ?_,
    fun c es r next v n patch hreach hcall => ?_⟩
  · obtain ⟨x, n, loaded, revision, hmem, hx, rfl⟩ := Pipeline.exists_statusPatch_of_reaches hreach hcall
    have hread : Legacy.kind.codec.decode doc = .ok x :=
      (hstands.decode_label_iff _).1 (((hloads _ hmem _ _ rfl).decode_ok_iff Legacy.kind.codec).1 hx)
    have htakes := (hstands.decode_iff.1 hread).status
    rw [hstatus] at htakes
    obtain ⟨s, hs, hdecode⟩ := Pipeline.Source.takes_status_iff.1 htakes
    refine ⟨Pipeline.confined_statusPatch_note _ _, ?_⟩
    rw [Pipeline.get?_status_statusPatch, hs]
    exact Pipeline.exists_saysMigrated (hstands.normal.get? hstatus) hdecode
  · obtain ⟨o, rfl, -, -, rfl, -, hholds⟩ := Pipeline.Source.exists_source hstands hd hclass hstatus hphase
    rcases Pipeline.completes hobjects hns hnamespace hname hholds with ⟨-, doc', x, hobjects', hdoc', hresult⟩ | ⟨hx, -⟩
    · obtain ⟨ws, hws, hsays⟩ := Pipeline.exists_saysMigrated o.normal o.observes
      exact ⟨x, doc', ws, hresult, hobjects', hdoc'.status.trans (congrArg some hws), hsays⟩
    · cases hx
  · obtain ⟨revision, s, rfl⟩ := Adoption.exists_statusPatch_of_reaches hreach hcall
    have hconfined := Adoption.confined_statusPatch revision s
    refine ⟨hconfined, fun objs a w objs' hserves => ?_⟩
    rw [hcall] at hserves
    exact hconfined.retains hserves

/-- the status of an installed object that was upgraded before, with a member that nobody here knows -/
def upgradedStatus : List (String × Json) :=
  [("backup", .obj [("previous", .str "Monday")]), ("note", .str "kept"), ("phase", .str "Installed"),
    ("upgradeAttempts", .int 3), ("version", .str "1.8")]

/-- a cluster that holds it -/
def upgradedCluster : { c : Cluster // c.Sound } :=
  Pipeline.holding "app" (Pipeline.document (Metadata.codec.write { name := some "app", resourceVersion := some "1" })
    (.obj upgradedStatus))

theorem status_bookkeeping_survives_upgraded : ∃ x doc ws,
    ((Pipeline.run Pipeline.installationContext).exec (Cluster.asStore "syndesis").serve upgradedCluster).result.result =
      .ok (.migrated x) ∧
    (Cluster.asStore "syndesis").objects ((Pipeline.run Pipeline.installationContext).exec
      (Cluster.asStore "syndesis").serve upgradedCluster).server = .singleton "app" doc ∧
    doc.get? "status" = some (.obj ws) ∧ Entries.find? "upgradeAttempts" ws = some (.int 3) ∧
    Entries.find? "note" ws = some (.str "kept") ∧ Entries.find? "version" ws = some (.str "1.8") := by
  have hm := Metadata.codec_keeps_identity (some "app") none (some "1")
  have hnormal : (Json.obj upgradedStatus).Normal := by
    simp only [upgradedStatus, Json.Normal, Json.NormalMembers]
    decide
  have hstands := Pipeline.stands_document (Metadata.normal_write_identity _ _ _) hnormal hm rfl rfl
  obtain ⟨d, l, hd, hclass, hl⟩ := Pipeline.exists_classify_document hstands (Pipeline.rereads_document hm hm) rfl
  have hphase : l.phase = .installed := by
    rw [Resource.phase, hl]
    rfl
  obtain ⟨-, hstore, -⟩ := status_bookkeeping_survives hstands hd hclass hphase rfl
  obtain ⟨x, doc, ws, hresult, hobjects, hstatus, hsays⟩ := hstore _ "syndesis" (Cluster.asStore "syndesis")
    upgradedCluster Pipeline.installationContext rfl rfl Pipeline.isName_syndesis Pipeline.isName_app
  refine ⟨x, doc, ws, hresult, hobjects, hstatus, ?_, ?_, ?_⟩
  · exact hsays.others _ (by decide)
  · exact hsays.others _ (by decide)
  · exact hsays.version

end MigrationOperator
