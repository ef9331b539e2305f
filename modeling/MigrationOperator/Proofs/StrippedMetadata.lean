/-
What a migration does to the metadata of the object.

A migrated object is put together anew: of its metadata the replacement carries name, namespace and revision
(`Pipeline.at?_replacement`). Where a replacement takes labels, annotations, finalizers and owner references from its body,
as in the cluster (`Cluster.asReplacing`), the object has none of them when the run is over, whatever it had before
(`Pipeline.metadata_stripped`). So a migration does not keep them (`Pipeline.exists_stripped`).
-/
import MigrationOperator.Proofs.Pipeline.OnCluster
import MigrationOperator.Proofs.Store.Sharing

namespace MigrationOperator

/-- metadata that an object has of its own, besides what identifies it -/
def ownMetadata : List String := ["labels", "annotations", "finalizers", "ownerReferences"]

/-- a store in which a replacement takes these members of the metadata from its body -/
structure Replaces (objs : StringMap Json) (call : Call) (a : Answer) (w : Option Write) (objs' : StringMap Json) :
    Prop where
  serves : Serves objs call a w objs'
  replaced : ∀ v name body doc, call = .replace v name body → w.isSome → objs'.get? name = some doc →
    ∀ k ∈ ownMetadata, doc.at? ["metadata", k] = body.at? ["metadata", k]

/-! ## The cluster -/

namespace Cluster

variable {c : Cluster} {r : Request}

/-- the revision is the only metadata that is not the body's -/
theorem at?_keepStatus_revised {name : String} {revision : Option String} {body object : Json}
    (hbody : body.Stands name revision) (hobject : object.Normal) (new : String) {k : String} (hk : k ≠ "resourceVersion") :
    ((keepStatus body object).revised new).at? ["metadata", k] = body.at? ["metadata", k] := by
  have hkept := stands_keepStatus hbody hobject
  obtain ⟨ns, m, hns, -⟩ := hkept.exists_metadata
  have hsame : body.get? "metadata" = some (.obj ns) := by
    rw [← hns, get?_keepStatus hbody, if_neg (by decide)]
  have hrevised := hkept.get?_revised hns new "metadata"
  rw [if_pos rfl] at hrevised
  rw [Json.at?_pair hrevised, Entries.find?_insert, if_neg hk, Json.at?_pair hsame]

theorem replaces_serve (h : c.Sound) (hplain : r.HasPlainNames) (hproper : r.call.Proper) (hstored : Stored c.objects) :
    ∃ w, Replaces c.objects r.call (c.serve r).1 w (c.serve r).2.objects := by
  obtain ⟨w, hserves, -⟩ := serves_serve h hplain hproper hstored
  refine ⟨w, hserves, fun v name body doc hcall hw hdoc k hk => ?_⟩
  rw [hcall] at hserves hproper
  obtain ⟨revision, hbody⟩ := hproper
  rcases hserves.replace_cases with ⟨object, _, _, -, -, hreplaced, -⟩ | ⟨rfl, -⟩
  · have hfound : c.objects.get? name = some object := hreplaced.found
    obtain ⟨r', hobject⟩ := hstored name object hfound
    rw [serve_eq_respond h hplain, hcall, respond, update, hfound] at hdoc
    dsimp only at hdoc
    rw [if_pos hreplaced.current] at hdoc
    have hkept : doc = (keepStatus body object).revised (toString (c.revision + 1)) :=
      (Option.some.inj ((StringMap.get?_insert_self _ _ _).symm.trans hdoc)).symm
    have hne : k ≠ "resourceVersion" := by
      rintro rfl
      exact absurd hk (by decide)
    rw [hkept, at?_keepStatus_revised hbody hobject.normal _ hne]
  · cases hw

/-- the cluster as such a store -/
def asReplacing (namespaceName : String) : Server Replaces namespaceName { c : Cluster // c.Sound } where
  objects := (asStore namespaceName).objects
  serve := (asStore namespaceName).serve
  lawful s _ _ hplain hproper hstored := replaces_serve s.2 hplain hproper hstored

end Cluster

/-! ## A migration -/

namespace Pipeline

/-- a replacement carries none of them -/
theorem at?_replacement (c : Context) (l : LegacyResource) (revision : Option String) {k : String} (hk : k ∈ ownMetadata) :
    (replacement c l revision).at? ["metadata", k] = none := by
  have hmetadata : (replacement c l revision).get? "metadata" = some (Metadata.codec.write
      { name := some (l.metadata.name.getD Canonical.defaultName), namespaceName := some c.namespaceName,
        resourceVersion := revision }) := by
    rw [replacement, Json.get?, Entries.find?_eq_head?, (Canonical.kind.shows_write _).metadata]
    rfl
  rw [Json.at?_pair hmetadata, Entries.find?_ofList]
  simp only [ownMetadata, List.mem_cons, List.not_mem_nil, or_false] at hk
  rcases hk with rfl | rfl | rfl | rfl <;> cases revision <;> rfl

section

variable {o : Source} {c : Context} {ns : String} {σ : Type} {server : Server Replaces ns σ} {s : σ}
  {p : Program (Report Outcome)}

/-- the replacement leaves an object without them -/
theorem Arrives.strips (h : Arrives c (server.asStore Replaces.serves) s o p) (hns : c.namespaceName = ns)
    (hnamespace : IsName ns) (hname : IsName o.name) :
    ∃ x doc, (p.exec server.serve s).result.result = .ok (.migrated x) ∧
      server.objects (p.exec server.serve s).server = .singleton o.name doc ∧
      ∀ k ∈ ownMetadata, doc.at? ["metadata", k] = none := by
  obtain ⟨x, doc, l, revision, s₁, p₁, hx, hobjects, hholds, hstands, hlname, hl, hp, hresult, hserver⟩ := h
  have hobjects₁ : server.objects s₁ = .singleton o.name doc := hobjects
  have hnames := hasNames_of_call hns hnamespace hname (replaceRequest c l (some revision)).call
    fun n hn => Option.some.inj hn ▸ successor_name hlname
  obtain ⟨next, rfl, hnext⟩ := hp.exists_send rfl hnames
  obtain ⟨w, hserved⟩ := server.lawful s₁ (replaceRequest c l (some revision)) hns
    (Request.hasPlainNames_of_names hnames) ⟨_, stands_replacement c l _⟩ (hobjects₁ ▸ .singleton hholds.stands)
  have hserves := hserved.serves
  rw [hobjects₁] at hserves
  obtain ⟨left, new, y, rfl, hleft, -, hstage⟩ := next_replacing hholds hx hlname hl hstands hserves
  -- the answer ends the run, so the server stays as the replacement left it
  have hdone := hnext (server.serve s₁ (replaceRequest c l (some revision))).1
  rw [hstage] at hdone
  have hexec : (Program.send (replaceRequest c l (some revision)) next).exec server.serve s₁ =
      ⟨⟨some ⟨1, 0⟩, .ok (.migrated y)⟩, [replaceRequest c l (some revision)],
        (server.serve s₁ (replaceRequest c l (some revision))).2⟩ := by
    rw [Program.exec, hdone.eq_done]
    rfl
  have hresult' := hresult.trans (congrArg Program.Execution.result hexec)
  have hserver' := hserver.trans (congrArg Program.Execution.server hexec)
  refine ⟨y, left, congrArg Report.result hresult', ?_, fun k hk => ?_⟩
  · rw [← hleft]
    exact congrArg server.objects hserver'
  · have hfound : (server.objects (server.serve s₁ (replaceRequest c l (some revision))).2).get? o.name = some left := by
      rw [hleft, StringMap.get?_singleton_self]
    rw [← successor_name (c := c) hlname] at hfound
    rw [hserved.replaced _ _ _ left rfl rfl hfound k hk]
    exact at?_replacement c l _ hk

end

/-- **A migration strips the metadata.** Whatever labels, annotations, finalizers and owner references a stored object has
that is classified as legacy and installed: once a run without faults has migrated it, in a store in which a replacement
takes them from its body, the object has none. -/
theorem metadata_stripped {doc : Json} {name revision : String} {d : Opaque} {l : LegacyResource}
    {ms : List (String × Json)} (hstands : doc.Stands name (some revision)) (hd : Opaque.codec.decode doc = .ok d)
    (hclass : classify d = .ok (.legacy l)) (hphase : l.phase = .installed) (hstatus : doc.get? "status" = some (.obj ms))
    {σ : Type} {ns : String} (server : Server Replaces ns σ) (s : σ) (hobjects : server.objects s = .singleton name doc)
    {c : Context} (hns : c.namespaceName = ns) (hnamespace : IsName ns) (hname : IsName name) :
    ∃ x doc', ((run c).exec server.serve s).result.result = .ok (.migrated x) ∧
      server.objects ((run c).exec server.serve s).server = .singleton name doc' ∧
      ∀ k ∈ ownMetadata, doc'.at? ["metadata", k] = none := by
  obtain ⟨o, rfl, -, -, -, -, hholds⟩ := Source.exists_source hstands hd hclass hstatus hphase
  have hstore : (server.asStore Replaces.serves).objects s = .singleton o.name doc := hobjects
  have harrives := arrives hstore hns hnamespace hname hholds (by decide)
  exact harrives.strips hns hnamespace hname

/-- the metadata of an object that others rely on -/
def ownedMetadata : Json :=
  .obj [("annotations", .obj [("note", .str "keep")]), ("finalizers", .arr [.str "syndesis.io/cleanup"]),
    ("labels", .obj [("team", .str "integration")]), ("name", .str "app"),
    ("ownerReferences", .arr [.obj [("apiVersion", .str "v1"), ("kind", .str "ConfigMap"), ("name", .str "owner"),
      ("uid", .str "1")]]), ("resourceVersion", .str "1")]

/-- an installed object that has it -/
def ownedDocument : Json := document ownedMetadata (.obj [("phase", .str "Installed")])

theorem exists_decode_ownedMetadata : ∃ m, Metadata.codec.decode ownedMetadata = .ok m ∧ m.name = some "app" ∧
    m.resourceVersion = some "1" ∧ Metadata.codec.decode (Metadata.codec.write m) = .ok m :=
  ⟨_, rfl, rfl, rfl, rfl⟩

theorem normal_ownedMetadata : ownedMetadata.Normal := by
  simp only [ownedMetadata, Json.Normal, Json.NormalList, Json.NormalMembers]
  decide

theorem stands_ownedDocument : ownedDocument.Stands "app" (some "1") := by
  obtain ⟨m, hm, hname, hrevision, -⟩ := exists_decode_ownedMetadata
  have hstatus : (Json.obj [("phase", .str "Installed")]).Normal := by
    simp only [Json.Normal, Json.NormalMembers]
    decide
  exact stands_document normal_ownedMetadata hstatus hm hname hrevision

theorem exists_classify_ownedDocument : ∃ d l, Opaque.codec.decode ownedDocument = .ok d ∧
    classify d = .ok (.legacy l) ∧ l.phase = .installed := by
  obtain ⟨m, hm, -, -, hm'⟩ := exists_decode_ownedMetadata
  obtain ⟨d, l, hd, hclass, hl⟩ := exists_classify_document stands_ownedDocument (rereads_document hm hm') rfl
  refine ⟨d, l, hd, hclass, ?_⟩
  rw [Resource.phase, hl]
  rfl

theorem metadata_stripped_owned : ∃ x doc,
    ((run installationContext).exec (Cluster.asReplacing "syndesis").serve (holding "app" ownedDocument)).result.result =
      .ok (.migrated x) ∧
    (Cluster.asReplacing "syndesis").objects ((run installationContext).exec (Cluster.asReplacing "syndesis").serve
      (holding "app" ownedDocument)).server = .singleton "app" doc ∧
    ∀ k ∈ ownMetadata, doc.at? ["metadata", k] = none := by
  obtain ⟨d, l, hd, hclass, hphase⟩ := exists_classify_ownedDocument
  exact metadata_stripped stands_ownedDocument hd hclass hphase rfl (Cluster.asReplacing "syndesis")
    (holding "app" ownedDocument) rfl rfl isName_syndesis isName_app

/-- **A migration does not keep the metadata.** An object with labels, annotations, finalizers and owner references is
migrated on the cluster, and then has other ones than before. -/
theorem exists_stripped : ∃ x doc,
    ((run installationContext).exec (Cluster.asReplacing "syndesis").serve (holding "app" ownedDocument)).result.result =
      .ok (.migrated x) ∧
    (Cluster.asReplacing "syndesis").objects ((run installationContext).exec (Cluster.asReplacing "syndesis").serve
      (holding "app" ownedDocument)).server = .singleton "app" doc ∧
    ∀ k ∈ ownMetadata, doc.at? ["metadata", k] ≠ ownedDocument.at? ["metadata", k] := by
  obtain ⟨d, l, hd, hclass, hphase⟩ := exists_classify_ownedDocument
  obtain ⟨o, hname, -, -, -, -, hholds⟩ := Source.exists_source stands_ownedDocument hd hclass rfl hphase
  have hobjects : ((Cluster.asReplacing "syndesis").asStore Replaces.serves).objects (holding "app" ownedDocument) =
      .singleton o.name ownedDocument := hname ▸ rfl
  have harrives := arrives (c := installationContext) hobjects rfl isName_syndesis (hname ▸ isName_app) hholds (by decide)
  obtain ⟨x, doc, hresult, hleft, hnone⟩ := harrives.strips rfl isName_syndesis (hname ▸ isName_app)
  rw [hname] at hleft
  refine ⟨x, doc, hresult, hleft, fun k hk => ?_⟩
  rw [hnone k hk]
  simp only [ownMetadata, List.mem_cons, List.not_mem_nil, or_false] at hk
  rcases hk with rfl | rfl | rfl | rfl <;> exact nofun

end Pipeline

end MigrationOperator
