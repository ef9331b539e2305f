/-
Runs on the cluster held in memory, as traces.

The cluster numbers its writes, so each accepted one gets a fresh revision. `exists_reading` follows one run from its
listing to the object that it loads, whatever else is about to run; then its two writes get the next two numbers
(`Loaded.exists_writing`), unless somebody else writes the object first (`Loaded.exists_overtaken`). `installation` is a
small legacy object to try statements on.
-/
import MigrationOperator.Proofs.Pipeline.Completion
import MigrationOperator.Proofs.Store.Cluster

namespace MigrationOperator.Pipeline

variable {o : Source} {x : Extent} {doc : Json} {c : Context} {cluster : Cluster} {W : World} {i : Nat}

/-- a run at a stage has its request served by the cluster -/
theorem exists_step {stage : Stage} {call : Call} (hsound : cluster.Sound) (hobjects : W.objects = cluster.objects)
    (hstored : Stored W.objects) (h : Runs c stage (W.runs i)) (hcall : stage.call? c = some call)
    (hnames : Request.HasNames ⟨c.namespaceName, call⟩) (hproper : call.Proper) :
    ∃ a w W' cluster', Step c.namespaceName W (.sent i ⟨c.namespaceName, call⟩ a w) W' ∧
      Serves W.objects call a w W'.objects ∧ Runs c (stage.next a) (W'.runs i) ∧
      Cluster.Sound cluster' ∧ W'.objects = cluster'.objects ∧ cluster.Counts cluster' w := by
  obtain ⟨next, hsend, hnext⟩ := h.exists_send hcall hnames
  obtain ⟨w, hserved, hcounts⟩ := Cluster.serves_serve hsound (Request.hasPlainNames_of_names hnames) hproper
    (hobjects ▸ hstored)
  rw [← hobjects] at hserved
  refine ⟨_, w, W.advance i (next (cluster.serve ⟨c.namespaceName, call⟩).1) _, _,
    .served hsend rfl hserved (Or.inl rfl), hserved, ?_, Cluster.sound_serve hsound _, rfl, hcounts⟩
  show Runs c _ (if i = i then _ else _)
  rw [if_pos rfl]
  exact hnext _

/-- a run lists and loads an object -/
def reading (c : Context) (i : Nat) (name : String) (a₁ a₂ : Answer) : List Event :=
  [.sent i ⟨c.namespaceName, .list⟩ a₁ none, .sent i ⟨c.namespaceName, .read .legacy name⟩ a₂ none]

/-- a run writes the status of an object and replaces it, which leaves it at these revisions -/
def writing (c : Context) (i : Nat) (name : String) (l : LegacyResource) (a₁ a₂ : Answer) (revision₁ revision₂ : String) :
    List Event :=
  [.sent i (patchRequest c l) a₁ (some ⟨name, revision₁⟩),
    .sent i (replaceRequest c l (some revision₁)) a₂ (some ⟨name, revision₂⟩)]

/-- somebody else leaves an object at this revision, and a run that loaded it before meets a conflict -/
def overtaken (c : Context) (i : Nat) (name : String) (l : LegacyResource) (revision : String) : List Event :=
  [.foreign name (some revision), .sent i (patchRequest c l) Cluster.conflict none]

/-- a run loaded the one object of the cluster, and is about to patch it -/
structure Loaded (o : Source) (x : Extent) (doc : Json) (c : Context) (i : Nat) (l : LegacyResource) (cluster : Cluster)
    (W : World) : Prop where
  holds : o.Holds x doc
  reads : Legacy.kind.codec.decode doc = .ok l
  runs : Runs c (.patching l) (W.runs i)
  sound : cluster.Sound
  objects : W.objects = cluster.objects
  single : W.objects = .singleton o.name doc

/-- the cluster serves the listing and the loading -/
theorem exists_reading (h : o.Holds x doc) (hx : x ≠ .migrated) (hsound : cluster.Sound)
    (hobjects : W.objects = cluster.objects) (hsingle : W.objects = .singleton o.name doc)
    (hrun : W.runs i = run c) (hnamespace : IsName c.namespaceName) (hname : IsName o.name) :
    ∃ l a₁ a₂ W' cluster', Action.decode Legacy.kind.codec a₂ = .ok l ∧
      Trace c.namespaceName W (reading c i o.name a₁ a₂) W' ∧ Cluster.revision cluster' = cluster.revision ∧
      Loaded o x doc c i l cluster' W' := by
  have hstored : Stored (.singleton o.name doc) := .singleton h.stands
  obtain ⟨a₁, w₁, W₁, cluster₁, hstep₁, hs₁, hr₁, hsound₁, hobjects₁, hcounts₁⟩ := exists_step hsound hobjects
    (hsingle ▸ hstored) (hrun ▸ runs_run c) rfl (hasNames_of_call rfl hnamespace hname .list nofun) trivial
  rw [hsingle] at hs₁
  obtain rfl := hs₁.list_cases.1
  obtain ⟨hsingle₁, hlisted⟩ := next_listing h hs₁
  obtain ⟨-, y, hy, hstage₁⟩ := hlisted.resolve_right fun hm => hx hm.1
  rw [hstage₁] at hr₁
  have hcall : ∀ n, (Call.read .legacy y.name).name? = some n → n = o.name := fun n hn => Option.some.inj hn ▸ hy
  obtain ⟨a₂, w₂, W₂, cluster₂, hstep₂, hs₂, hr₂, hsound₂, hobjects₂, hcounts₂⟩ := exists_step hsound₁ hobjects₁
    (hsingle₁ ▸ hstored) hr₁ rfl (hasNames_of_call rfl hnamespace hname _ hcall) trivial
  rw [hsingle₁, hy] at hs₂
  obtain rfl := hs₂.read_cases.1
  obtain ⟨hsingle₂, l, hl, hread, hstage₂⟩ := next_loadingLegacy h hx y hs₂
  rw [hstage₂] at hr₂
  refine ⟨l, a₁, a₂, W₂, cluster₂, hread, ?_, ?_, ⟨h, hl, hr₂, hsound₂, hobjects₂, hsingle₂⟩⟩
  · exact Trace.cons_iff.2 ⟨W₁, hstep₁, Trace.cons_iff.2 ⟨W₂, hy ▸ hstep₂, .start⟩⟩
  · exact (show cluster₂.revision = cluster₁.revision from hcounts₂.revision).trans hcounts₁.revision

section

variable {l : LegacyResource}

theorem Loaded.successor_name (h : Loaded o x doc c i l cluster W) : (successor c l).name = o.name := by
  obtain ⟨revision, hstands⟩ := h.holds.stands
  exact Pipeline.successor_name (hstands.identity_of_decode h.reads).1

/-- the cluster serves the status patch and the replacement -/
theorem Loaded.exists_writing (h : Loaded o x doc c i l cluster W) (hnamespace : IsName c.namespaceName)
    (hname : IsName o.name) :
    ∃ a₁ a₂ W', Trace c.namespaceName W
      (writing c i o.name l a₁ a₂ (toString (cluster.revision + 1)) (toString (cluster.revision + 2))) W' := by
  obtain ⟨revision, hstands⟩ := h.holds.stands
  have hsuccessor := h.successor_name
  obtain ⟨a₁, w₁, W₁, cluster₁, hstep₁, hs₁, hr₁, hsound₁, hobjects₁, hcounts₁⟩ := exists_step h.sound h.objects
    (h.single ▸ .singleton h.holds.stands) h.runs rfl (hasNames_of_call rfl hnamespace hname (patchRequest c l).call
      fun n hn => Option.some.inj hn ▸ hsuccessor) (normal_statusPatch _ _)
  rw [h.single] at hs₁
  obtain ⟨doc₁, revision₁, rfl, hsingle₁, hdoc₁, hstands₁, hstage₁⟩ := next_patching h.holds h.reads hs₁
  rw [hstage₁] at hr₁
  obtain ⟨a₂, w₂, W₂, cluster₂, hstep₂, hs₂, -, -, -, hcounts₂⟩ := exists_step hsound₁ hobjects₁
    (hsingle₁ ▸ .singleton hdoc₁.stands) hr₁ rfl
    (hasNames_of_call rfl hnamespace hname (replaceRequest c l (some revision₁)).call
      fun n hn => Option.some.inj hn ▸ hsuccessor) ⟨_, stands_replacement c l _⟩
  rw [hsingle₁] at hs₂
  obtain ⟨doc₂, revision₂, z, rfl, -⟩ := next_replacing hdoc₁ x.note_ne_untouched
    (hstands.identity_of_decode h.reads).1 (h.holds.of_decode_legacy h.reads).2.2 hstands₁ hs₂
  have hfirst : revision₁ = toString (cluster.revision + 1) := hcounts₁.next _ rfl
  have hsecond : revision₂ = toString (cluster.revision + 2) := by
    rw [show revision₂ = toString (cluster₁.revision + 1) from hcounts₂.next _ rfl,
      show cluster₁.revision = cluster.revision + 1 from hcounts₁.revision]
  subst hfirst hsecond
  exact ⟨a₁, a₂, W₂, Trace.cons_iff.2 ⟨W₁, hstep₁, Trace.cons_iff.2 ⟨W₂, hstep₂, .start⟩⟩⟩

/-- somebody else may write the object at another revision in between -/
theorem Loaded.exists_overtaken (h : Loaded o x doc c i l cluster W) (hnamespace : IsName c.namespaceName)
    (hname : IsName o.name) {revision other : String} (hstands : doc.Stands o.name (some revision))
    (hne : other ≠ revision) : ∃ W', Trace c.namespaceName W (overtaken c i o.name l other) W' := by
  have hsuccessor := h.successor_name
  have hother := hstands.revised other
  obtain ⟨next, hsend, -⟩ := h.runs.exists_send rfl (hasNames_of_call rfl hnamespace hname (patchRequest c l).call
    fun n hn => Option.some.inj hn ▸ hsuccessor)
  have hconflict : Serves (W.objects.insert o.name (doc.revised other)) (patchRequest c l).call Cluster.conflict none
      (W.objects.insert o.name (doc.revised other)) := by
    refine .conflicting rfl (fun found hfound => ?_) (Cluster.failed_failure _ rfl)
    rw [hsuccessor, StringMap.get?_insert_self] at hfound
    obtain rfl := Option.some.inj hfound
    rw [Cluster.isCurrent, revisionOf_statusPatch, (hstands.identity_of_decode h.reads).2, hother.revisionOf_eq]
    simpa using hne
  exact ⟨_, Trace.cons_iff.2 ⟨_, .put hother, Trace.cons_iff.2 ⟨_, .served hsend rfl hconflict (Or.inl rfl), .start⟩⟩⟩

end

/-! ## A small installation -/

/-- an installed legacy object -/
def installation : LegacyResource where
  metadata := { name := some "app", resourceVersion := some "1" }
  spec := {}
  status := some { phase := .installed }

def installationContext : Context where
  namespaceName := "syndesis"

/-- the cluster that holds it, and runs none of which has begun -/
def beginning : World where
  objects := .singleton "app" (Legacy.kind.write installation)
  runs _ := run installationContext

theorem stands_installation : (Legacy.kind.write installation).Stands "app" (some "1") := by
  have hkeeps := Metadata.codec_keeps_identity (some "app") none (some "1")
  refine ⟨Legacy.kind.normal_write (Metadata.normal_write_identity _ _ _), _, _, ?_, hkeeps, rfl, rfl⟩
  rw [Json.get?, Entries.find?_eq_head?, (Legacy.kind.shows_write installation).metadata]
  rfl

theorem exists_classify_installation : ∃ d, Opaque.codec.decode (Legacy.kind.write installation) = .ok d ∧
    classify d = .ok (.legacy installation) := by
  have hstatus : ({ phase := .installed } : Status).Regular := ⟨rfl, rfl⟩
  have hfaithful : (Classified.legacy installation).Faithful := by
    refine ⟨Metadata.codec_keeps_identity (some "app") none (some "1"), ?_⟩
    rintro s ⟨⟩
    exact hstatus
  exact exists_classify_dress_write hfaithful fun e he => absurd he List.not_mem_nil

theorem get?_status_installation :
    (Legacy.kind.write installation).get? "status" = some (.obj [("phase", .str "Installed")]) := by
  rw [Json.get?, Entries.find?_eq_head?, (Legacy.kind.shows_write installation).status]
  rfl

/-- the document of an installation with this metadata and this status -/
def document (metadata status : Json) : Json :=
  .obj [("metadata", metadata), ("spec", Legacy.Spec.codec.write {}), ("status", status)]

section

variable {metadata status : Json} {m : Metadata} {s : Status} {name revision : String}

theorem stands_document (hmetadata : metadata.Normal) (hstatus : status.Normal)
    (hm : Metadata.codec.decode metadata = .ok m) (hname : m.name = some name)
    (hrevision : m.resourceVersion = some revision) : (document metadata status).Stands name (some revision) := by
  have hspec : (Legacy.Spec.codec.write {}).Normal := Codec.Tidy.normal_write (c := Legacy.Spec.codec) _
  have hkeys : ["metadata", "spec", "status"].Pairwise (· < ·) := by decide
  exact ⟨⟨Entries.ordered_iff_keys.2 hkeys, hmetadata, hspec, hstatus, trivial⟩, metadata, m, rfl, hm, hname, hrevision⟩

theorem rereads_document {m' : Metadata} (hm : Metadata.codec.decode metadata = .ok m)
    (hm' : Metadata.codec.decode (Metadata.codec.write m) = .ok m') : (document metadata status).Rereads := by
  intro md x hmd hx
  obtain rfl := Option.some.inj hmd
  obtain rfl := Except.ok.inj (hm.symm.trans hx)
  exact ⟨m', hm'⟩

/-- it is classified as legacy, with the status that it has -/
theorem exists_classify_document {ms : List (String × Json)}
    (hstands : (document metadata (.obj ms)).Stands name (some revision))
    (hrereads : (document metadata (.obj ms)).Rereads) (hs : Status.codec.decode (.obj ms) = .ok s) :
    ∃ d l, Opaque.codec.decode (document metadata (.obj ms)) = .ok d ∧ classify d = .ok (.legacy l) ∧
      l.status = some s := by
  have hspec : (document metadata (.obj ms)).get? "spec" = some (Legacy.Spec.codec.write {}) := rfl
  have hstatus : (Column.optional "status" Status.codec).Takes (some (.obj ms)) (some s) :=
    Source.takes_status_iff.2 ⟨s, rfl, hs⟩
  obtain ⟨d, l, hd, hclass, -, -, hl⟩ := Source.exists_classify_of_written hstands hrereads hspec hstatus
  exact ⟨d, l, hd, hclass, hl⟩

end

/-- a cluster that holds one object -/
def holding (name : String) (doc : Json) : { c : Cluster // c.Sound } := ⟨{ objects := .singleton name doc }, rfl, rfl⟩

theorem solitary_beginning {es : List Event} (h : ∀ e ∈ es, e.IsOf 0) :
    Solitary "app" (Legacy.kind.write installation) beginning es :=
  ⟨rfl, ⟨"1", stands_installation⟩, fun _ => ⟨_, rfl⟩, fun e he => ⟨0, h e he⟩⟩

/-- revisions are fresh when they differ from each other and from the first one -/
theorem fresh_beginning {es : List Event} {revisions : List String} (h : es.filterMap Event.revision? = revisions)
    (hnodup : revisions.Nodup) (hnew : "1" ∉ revisions) : Fresh beginning.objects es := by
  subst h
  refine ⟨hnodup, fun name doc hget r hr hrevision => ?_⟩
  obtain ⟨-, rfl⟩ := StringMap.get?_singleton_eq_some.1 hget
  obtain rfl : "1" = r := Option.some.inj (stands_installation.revisionOf_eq.symm.trans hrevision)
  exact hnew hr

theorem isName_app : IsName "app" := ⟨by decide, by decide, by decide⟩

theorem isName_syndesis : IsName "syndesis" := ⟨by decide, by decide, by decide⟩

/-- the first run loads it -/
theorem exists_reading_installation : ∃ o l a₁ a₂ W cluster, o.name = "app" ∧
    Action.decode Legacy.kind.codec a₂ = .ok l ∧
    Trace "syndesis" beginning (reading installationContext 0 "app" a₁ a₂) W ∧ Cluster.revision cluster = 1 ∧
    Loaded o .untouched (Legacy.kind.write installation) installationContext 0 l cluster W := by
  obtain ⟨d, hd, hclass⟩ := exists_classify_installation
  obtain ⟨o, hname, -, -, -, -, hdoc⟩ :=
    Source.exists_source stands_installation hd hclass get?_status_installation rfl
  have hsound : Cluster.Sound { objects := beginning.objects, revision := 1 } := ⟨rfl, rfl⟩
  obtain ⟨l, a₁, a₂, W, cluster, hread, ht, hrevision, hloaded⟩ := exists_reading (c := installationContext)
    (W := beginning) (i := 0) hdoc nofun hsound rfl (hname ▸ rfl) rfl isName_syndesis (hname ▸ isName_app)
  exact ⟨o, l, a₁, a₂, W, cluster, hname, hread, hname ▸ ht, hrevision, hloaded⟩

/-- and migrates it, and its writes get fresh revisions -/
theorem exists_wholeRun : ∃ l a₁ a₂ a₃ a₄ es W,
    es = reading installationContext 0 "app" a₁ a₂ ++ writing installationContext 0 "app" l a₃ a₄ "2" "3" ∧
    Trace "syndesis" beginning es W ∧ Fresh beginning.objects es ∧
    Solitary "app" (Legacy.kind.write installation) beginning es := by
  obtain ⟨o, l, a₁, a₂, W, cluster, hname, -, ht, hrevision, hloaded⟩ := exists_reading_installation
  obtain ⟨a₃, a₄, W', ht'⟩ := hloaded.exists_writing isName_syndesis (hname ▸ isName_app)
  rw [hname, hrevision] at ht'
  refine ⟨l, a₁, a₂, a₃, a₄, _, W', rfl, Trace.append_iff.2 ⟨W, ht, ht'⟩, ?_, solitary_beginning fun e he => ?_⟩
  · exact fresh_beginning (show _ = ["2", "3"] from rfl) (by decide) (by decide)
  · simp only [reading, writing, List.cons_append, List.nil_append, List.mem_cons, List.not_mem_nil, or_false] at he
    rcases he with rfl | rfl | rfl | rfl <;> rfl

/-- unless somebody else writes it after it was loaded -/
theorem exists_overtakenRun : ∃ l a₁ a₂ es W,
    es = reading installationContext 0 "app" a₁ a₂ ++ overtaken installationContext 0 "app" l "2" ∧
    l.phase = .installed ∧ Action.decode Legacy.kind.codec a₂ = .ok l ∧ Trace "syndesis" beginning es W ∧
    Fresh beginning.objects es := by
  obtain ⟨o, l, a₁, a₂, W, cluster, hname, hread, ht, -, hloaded⟩ := exists_reading_installation
  obtain ⟨W', ht'⟩ := hloaded.exists_overtaken (c := installationContext) isName_syndesis (hname ▸ isName_app)
    (hname ▸ stands_installation) (show "2" ≠ "1" by decide)
  rw [hname] at ht'
  exact ⟨l, a₁, a₂, _, W', rfl, (hloaded.holds.of_decode_legacy hloaded.reads).2.1, hread,
    Trace.append_iff.2 ⟨W, ht, ht'⟩, fresh_beginning (show _ = ["2"] from rfl) (by decide) (by decide)⟩

end MigrationOperator.Pipeline
