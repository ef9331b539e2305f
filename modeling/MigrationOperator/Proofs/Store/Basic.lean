/-
A store of objects, as far as the operator relies on it.

`Serves` relates a call to its answer and to what becomes of the objects. Reading returns the stored object under the
version that was asked for. A write that is accepted leaves the object at a revision, which the answer carries: a
replacement takes the spec and keeps the status, a status patch merges into the status and touches nothing else. A write
that carries another revision than the stored one fails without effect. Nothing is said of where revisions come from.
A `Store` serves every proper call in this way.
-/
import Mathlib.Data.List.Forall2
import MigrationOperator.Server.Cluster
import MigrationOperator.Api.Program
import MigrationOperator.Proofs.Json.MergePatch
import MigrationOperator.Proofs.Resource.Document
import MigrationOperator.Proofs.Resource.Metadata

namespace MigrationOperator

/-! ## Stored objects -/

namespace Json

/-- an object whose metadata reads, with this name and at this revision -/
structure Stands (name : String) (revision : Option String) (j : Json) : Prop where
  normal : j.Normal
  metadata : ∃ md m, j.get? "metadata" = some md ∧ Metadata.codec.decode md = .ok m ∧ m.name = some name ∧
    m.resourceVersion = revision

/-- the metadata is read again once it was written -/
def Rereads (j : Json) : Prop :=
  ∀ md m, j.get? "metadata" = some md → Metadata.codec.decode md = .ok m →
    ∃ m', Metadata.codec.decode (Metadata.codec.write m) = .ok m'

theorem Stands.exists_obj {name : String} {revision : Option String} {j : Json} (h : j.Stands name revision) :
    ∃ ms, j = .obj ms ∧ Entries.Ordered ms := by
  obtain ⟨md, m, hmd, -⟩ := h.metadata
  cases j with
  | obj ms => exact ⟨ms, rfl, h.normal.1⟩
  | _ => exact absurd hmd nofun

/-- the metadata of an object that stands is an object in key order -/
theorem Stands.exists_metadata {name : String} {revision : Option String} {j : Json} (h : j.Stands name revision) :
    ∃ ns m, j.get? "metadata" = some (.obj ns) ∧ Entries.Ordered ns ∧ Metadata.codec.decode (.obj ns) = .ok m ∧
      m.name = some name ∧ m.resourceVersion = revision := by
  obtain ⟨md, m, hmd, hm, hname, hrevision⟩ := h.metadata
  obtain ⟨ns, rfl⟩ := Metadata.exists_obj_of_decode hm
  exact ⟨ns, m, hmd, (h.normal.get? hmd).1, hm, hname, hrevision⟩

theorem at?_pair {j : Json} {k k' : String} {ns : List (String × Json)} (h : j.get? k = some (.obj ns)) :
    j.at? [k, k'] = Entries.find? k' ns := by
  rw [at?, h]
  show (Entries.find? k' ns).bind (at? []) = Entries.find? k' ns
  cases Entries.find? k' ns <;> rfl

theorem at?_status (j : Json) (k : String) : j.at? ["status", k] = (ofOption (j.get? "status")).get? k := by
  rw [at?]
  cases j.get? "status" with
  | none => rfl
  | some status =>
    show (status.get? k).bind (at? []) = status.get? k
    cases status.get? k <;> rfl

theorem Stands.nameOf_eq {name : String} {revision : Option String} {j : Json} (h : j.Stands name revision) :
    Cluster.nameOf j = name := by
  obtain ⟨ns, m, hns, hordered, hm, hname, -⟩ := h.exists_metadata
  rw [Cluster.nameOf, at?_pair hns, Metadata.name_of_decode hordered hm, hname]
  rfl

theorem Stands.revisionOf_eq {name : String} {revision : Option String} {j : Json} (h : j.Stands name revision) :
    Cluster.revisionOf j = revision := by
  obtain ⟨ns, m, hns, hordered, hm, -, hrevision⟩ := h.exists_metadata
  rw [Cluster.revisionOf, at?_pair hns, Metadata.revision_of_decode hordered hm, hrevision]

/-- a write that carries the revision is current -/
theorem Stands.isCurrent {name revision : String} {j body : Json} (h : j.Stands name (some revision))
    (hbody : Cluster.revisionOf body = some revision) : Cluster.isCurrent body j = true := by
  rw [Cluster.isCurrent, hbody, h.revisionOf_eq]
  exact decide_eq_true rfl

/-- what stands as metadata decides name and revision -/
theorem Stands.congr {name : String} {revision : Option String} {j j' : Json} (h : j.Stands name revision)
    (hnormal : j'.Normal) (hmetadata : j'.get? "metadata" = j.get? "metadata") : j'.Stands name revision :=
  ⟨hnormal, hmetadata ▸ h.metadata⟩

theorem Rereads.congr {j j' : Json} (h : j.Rereads) (hmetadata : j'.get? "metadata" = j.get? "metadata") :
    j'.Rereads :=
  fun md m hmd => h md m (hmetadata ▸ hmd)

/-! ### Reading what stands -/

section

variable {σ : Type} {k : Kind σ} {x : Resource σ} {name : String} {revision : Option String} {j : Json}

theorem Stands.get?_label (h : j.Stands name revision) (v : SchemaVersion) {n : String} (hn : n ≠ "apiVersion") :
    (Cluster.label v j).get? n = j.get? n := by
  obtain ⟨ms, rfl, -⟩ := h.exists_obj
  rw [Cluster.label, get?_set_obj, if_neg hn]

/-- the version it is read under makes no difference to name and revision -/
theorem Stands.label (h : j.Stands name revision) (v : SchemaVersion) : (Cluster.label v j).Stands name revision :=
  h.congr (normal_set _ h.normal trivial) (h.get?_label v (by decide))

theorem Stands.decode_iff (h : j.Stands name revision) : k.codec.decode j = .ok x ↔ k.Reads (j.get? ·) x := by
  obtain ⟨ms, rfl, hms⟩ := h.exists_obj
  exact Kind.decode_iff hms

/-- nor to what is decoded -/
theorem Stands.decode_label_iff (h : j.Stands name revision) (v : SchemaVersion) :
    k.codec.decode (Cluster.label v j) = .ok x ↔ k.codec.decode j = .ok x := by
  rw [(h.label v).decode_iff, h.decode_iff]
  refine Kind.reads_congr fun n hn => h.get?_label v ?_
  rintro rfl
  exact absurd hn (by decide)

/-- what is decoded has the name and the revision of the object -/
theorem Stands.identity_of_decode (h : j.Stands name revision) (hx : k.codec.decode j = .ok x) :
    x.metadata.name = some name ∧ x.metadata.resourceVersion = revision := by
  obtain ⟨md, m, hmd, hm, hname, hrevision⟩ := h.metadata
  have hread := (h.decode_iff.1 hx).metadata
  rw [hmd] at hread
  obtain rfl : x.metadata = m := Except.ok.inj (hread.symm.trans hm)
  exact ⟨hname, hrevision⟩

/-- and the spec that is stored -/
theorem Stands.exists_spec (h : j.Stands name revision) (hx : k.codec.decode j = .ok x) :
    ∃ s, j.get? "spec" = some s ∧ k.spec.decode s = .ok x.spec := by
  have hread := (h.decode_iff.1 hx).spec
  cases hs : j.get? "spec" with
  | none =>
    rw [hs] at hread
    exact absurd hread nofun
  | some s =>
    rw [hs] at hread
    exact ⟨s, rfl, hread⟩

/-- what is read without a schema has the revision, too -/
theorem Stands.revision_eq_of_decode (h : j.Stands name revision) {d : Opaque}
    (hd : Opaque.codec.decode j = .ok d) : d.metadata.resourceVersion = revision := by
  obtain ⟨md, m, hmd, hm, -, hrevision⟩ := h.metadata
  obtain ⟨ms, rfl, hms⟩ := h.exists_obj
  obtain ⟨d', hd', hdm, -⟩ := Opaque.exists_decode hms hmd hm
  obtain rfl := Except.ok.inj (hd.symm.trans hd')
  rw [hdm, hrevision]

/-- an object is read without a schema under its name and with its status -/
theorem Stands.exists_decode (h : j.Stands name revision) :
    ∃ d, Opaque.codec.decode j = .ok d ∧ d.name = name ∧ d.get? "status" = j.get? "status" := by
  obtain ⟨md, m, hmd, hm, hname, -⟩ := h.metadata
  obtain ⟨ms, rfl, hms⟩ := h.exists_obj
  obtain ⟨d, hd, hdm, ws, hws, -, -, hothers⟩ := Opaque.exists_decode hms hmd hm
  refine ⟨d, hd, ?_, ?_⟩
  · rw [Opaque.name, hdm, Metadata.displayName, hname]
    rfl
  · have hwrite := Opaque.find?_write (k := "status") (by decide) (by decide) (by decide) d
    rw [hws] at hwrite
    exact hwrite.symm.trans (hothers _ (by decide) (by decide) (by decide) fun v hv => h.normal.get? hv)

/-- what is decoded of what is written of it has the name and the revision of the object -/
theorem Stands.identity_of_decode_write (h : j.Stands name revision) {d : Opaque} (hd : Opaque.codec.decode j = .ok d)
    (hx : k.codec.decode d.write = .ok x) :
    x.metadata.name = some name ∧ x.metadata.resourceVersion = revision := by
  obtain ⟨md, m, hmd, hm, hname, hrevision⟩ := h.metadata
  obtain ⟨ms, rfl, hms⟩ := h.exists_obj
  obtain ⟨d', hd', -, ws, hws, hordered, hmetadata, -⟩ := Opaque.exists_decode hms hmd hm
  obtain rfl := Except.ok.inj (hd.symm.trans hd')
  rw [hws] at hx
  have hread := ((Kind.decode_iff hordered).1 hx).metadata
  rw [hmetadata] at hread
  obtain ⟨hname', hrevision'⟩ := Metadata.identity_of_decode_write hread
  exact ⟨hname'.trans hname, hrevision'.trans hrevision⟩

/-- an object whose metadata reads again is read without a schema and written again, and then decodes as it does itself,
up to metadata that is not read back -/
theorem Stands.exists_decode_write (h : j.Stands name revision) (hr : j.Rereads) :
    ∃ d, Opaque.codec.decode j = .ok d ∧ ∀ {τ : Type} (k : Kind τ),
      (∀ y, k.codec.decode d.write = .ok y → y.name = name ∧ ∃ m, k.codec.decode j = .ok { y with metadata := m }) ∧
        ∀ x, k.codec.decode j = .ok x → ∃ y, k.codec.decode d.write = .ok y ∧ y.name = name := by
  obtain ⟨md, m, hmd, hm, hname, -⟩ := h.metadata
  obtain ⟨ms, rfl, hms⟩ := h.exists_obj
  obtain ⟨m', hm'⟩ := hr md m hmd hm
  have hname' : m'.name = some name := (Metadata.identity_of_decode_write hm').1.trans hname
  obtain ⟨d, hd, -, hiff⟩ := Opaque.exists_decode_write_iff hms hmd hm hm' fun n _ v hv _ => h.normal.get? hv
  have hdisplay : ∀ {τ : Type} (y : Resource τ), y.metadata = m' → y.name = name := by
    intro τ y hy
    rw [Resource.name, hy, Metadata.displayName, hname']
    rfl
  refine ⟨d, hd, fun k => ⟨fun y hy => ?_, fun x hx => ?_⟩⟩
  · obtain ⟨hmetadata, hread⟩ := (hiff k y).1 hy
    exact ⟨hdisplay y hmetadata, m, hread⟩
  · have hmetadata : x.metadata = m := by
      have hread := (h.decode_iff.1 hx).metadata
      rw [hmd] at hread
      exact Except.ok.inj (Eq.trans hread.symm hm)
    exact ⟨{ x with metadata := m' }, (hiff k _).2 ⟨rfl, hmetadata ▸ hx⟩, hdisplay _ rfl⟩

end

/-! ### Listings -/

/-- a list is read as its items are -/
theorem decode_listing_of_items {items : List Json} {xs : List Opaque}
    (h : ObjectList.itemsCodec.read (.arr (docList items) .measured) = .ok xs) (revision : String) :
    ObjectList.codec.decode (Cluster.listing revision items) = .ok ⟨⟨none, none, some revision, none⟩, xs⟩ := by
  have hsorted : Cluster.listing revision items = .obj [("apiVersion", .str SchemaVersion.canonical.apiVersion),
      ("items", .arr items), ("kind", .str (SchemaVersion.kind ++ "List")),
      ("metadata", .object [("resourceVersion", .str revision)])] := by
    simp +decide only [Cluster.listing, object, Entries.ofList, List.foldl, Entries.insert, if_true, if_false]
  have hmetadata : ListMetadata.codec.read (Json.object [("resourceVersion", .str revision)]).doc =
      .ok ⟨none, none, some revision, none⟩ := rfl
  show ObjectList.read (Cluster.listing revision items).doc = _
  rw [hsorted]
  simp [Json.doc, ObjectList.read, docMembers, ObjectList.scan, h, hmetadata, bind, Except.bind, pure, Except.pure,
    Doc.value, Ending.check]

/-- and they are read one by one -/
theorem decode_listing_of_forall₂ {items : List Json} {xs : List Opaque}
    (h : List.Forall₂ (fun j x => Opaque.codec.decode j = .ok x) items xs) (revision : String) :
    ObjectList.codec.decode (Cluster.listing revision items) = .ok ⟨⟨none, none, some revision, none⟩, xs⟩ := by
  have hread : Opaque.codec.readList (docList items) = .ok xs := by
    induction h with
    | nil => rfl
    | @cons j x items xs hj _ ih =>
      have hx : Opaque.codec.read j.doc = .ok x := hj
      simp [docList, Codec.readList, hx, ih, bind, Except.bind, pure, Except.pure]
  refine decode_listing_of_items ?_ revision
  simp [ObjectList.itemsCodec, Codec.imap, Codec.nullable, Codec.list, hread, Except.map, bind, Except.bind, pure,
    Except.pure, Ending.check]

/-- a list of no objects holds none -/
theorem decode_listing_nil (revision : String) :
    ObjectList.codec.decode (Cluster.listing revision []) = .ok ⟨⟨none, none, some revision, none⟩, []⟩ :=
  decode_listing_of_forall₂ .nil revision

/-- a list of one object is read as the object is -/
theorem decode_listing {j : Json} {d : Opaque} (h : Opaque.codec.decode j = .ok d) (revision : String) :
    ObjectList.codec.decode (Cluster.listing revision [j]) = .ok ⟨⟨none, none, some revision, none⟩, [d]⟩ :=
  decode_listing_of_forall₂ (.cons h .nil) revision

end Json

/-- every object stands under its name and carries a revision -/
def Stored (objs : StringMap Json) : Prop :=
  ∀ name doc, objs.get? name = some doc → ∃ revision, doc.Stands name (some revision)

theorem Stored.singleton {name : String} {doc : Json} (h : ∃ revision, doc.Stands name (some revision)) :
    Stored (.singleton name doc) := by
  intro n d hd
  obtain ⟨rfl, rfl⟩ := StringMap.get?_singleton_eq_some.1 hd
  exact h

theorem Stored.insert {objs : StringMap Json} (h : Stored objs) {name revision : String} {doc : Json}
    (hdoc : doc.Stands name (some revision)) : Stored (objs.insert name doc) := by
  intro n d hd
  rw [StringMap.get?_insert] at hd
  split at hd
  · rename_i heq
    obtain rfl := Option.some.inj hd
    exact ⟨revision, heq ▸ hdoc⟩
  · exact h n d hd

/-- every object is listed without a schema -/
theorem Stored.exists_listed {objs : StringMap Json} (h : Stored objs) :
    ∃ ds, List.Forall₂ (fun doc d => Opaque.codec.decode (Cluster.label .canonical doc) = .ok d) objs.values ds := by
  have key : ∀ docs : List Json, (∀ doc ∈ docs, ∃ d, Opaque.codec.decode (Cluster.label .canonical doc) = .ok d) →
      ∃ ds, List.Forall₂ (fun doc d => Opaque.codec.decode (Cluster.label .canonical doc) = .ok d) docs ds := by
    intro docs hdocs
    induction docs with
    | nil => exact ⟨[], .nil⟩
    | cons doc docs ih =>
      obtain ⟨d, hd⟩ := hdocs doc List.mem_cons_self
      obtain ⟨ds, hds⟩ := ih fun doc' hdoc' => hdocs doc' (List.mem_cons_of_mem doc hdoc')
      exact ⟨d :: ds, .cons hd hds⟩
  refine key _ fun doc hdoc => ?_
  obtain ⟨name, hget⟩ := StringMap.exists_get?_of_mem_values hdoc
  obtain ⟨revision, hstands⟩ := h name doc hget
  obtain ⟨d, hd, -⟩ := (hstands.label .canonical).exists_decode
  exact ⟨d, hd⟩

/-! ## Answers -/

namespace Answer

/-- a success whose body is this value -/
def Carries (j : Json) (a : Answer) : Prop :=
  ∃ code text, a = .response code ⟨text, j.reading⟩ ∧ isErrorCode code = false

/-- no response, or one that reports an error -/
inductive Failed : Answer → Prop where
  | unreachable (message : String) : Failed (.unreachable message)
  | response {code : Nat} (body : Body) (h : isErrorCode code = true) : Failed (.response code body)

/-- a response that reports that there is no such object -/
def Absent (a : Answer) : Prop :=
  ∃ code body, a = .response code body ∧ isErrorCode code = true ∧ (ApiFault.ofResponse code body).code = 404

theorem Absent.exists_decode_eq {a : Answer} (h : a.Absent) {α : Type} (c : Codec α) :
    ∃ e, Action.decode c a = .error e ∧ e.isNotFound = true := by
  obtain ⟨code, body, rfl, hcode, hfault⟩ := h
  refine ⟨.api (.ofResponse code body), by rw [Action.decode, if_pos hcode], ?_⟩
  rw [OperatorError.isNotFound, hfault]
  rfl

/-- a response that reports a conflict -/
def Conflicts (a : Answer) : Prop :=
  ∃ code body, a = .response code body ∧ isErrorCode code = true ∧ (ApiFault.ofResponse code body).code = 409

theorem Absent.not_conflicts {a : Answer} (h : a.Absent) : ¬ a.Conflicts := by
  rintro ⟨code, body, rfl, -, hconflict⟩
  obtain ⟨code', body', heq, -, habsent⟩ := h
  obtain ⟨rfl, rfl⟩ := Answer.response.inj heq
  omega

theorem Conflicts.failed {a : Answer} (h : a.Conflicts) : a.Failed := by
  obtain ⟨code, body, rfl, hcode, -⟩ := h
  exact .response body hcode

theorem Carries.not_failed {j : Json} {a : Answer} (h : a.Carries j) : ¬ a.Failed := by
  obtain ⟨code, text, rfl, hcode⟩ := h
  intro hfailed
  cases hfailed with
  | response body herror => exact absurd (hcode.symm.trans herror) Bool.false_ne_true

theorem Carries.decode_eq {j : Json} {a : Answer} (h : a.Carries j) {α : Type} (c : Codec α) :
    Action.decode c a = (c.decode j).mapError .undecodable := by
  obtain ⟨code, text, rfl, hcode⟩ := h
  rw [Action.decode, hcode]
  show (c.decodeText ⟨j.doc, false⟩).mapError OperatorError.undecodable = _
  unfold Codec.decodeText Codec.decode
  cases c.read j.doc <;> rfl

theorem Carries.decode_ok_iff {j : Json} {a : Answer} (h : a.Carries j) {α : Type} (c : Codec α) {x : α} :
    Action.decode c a = .ok x ↔ c.decode j = .ok x := by
  rw [h.decode_eq]
  cases c.decode j with
  | ok y => exact ⟨fun h => congrArg Except.ok (Except.ok.inj h), fun h => congrArg Except.ok (Except.ok.inj h)⟩
  | error e => exact ⟨fun h => (by cases h), fun h => (by cases h)⟩

theorem Failed.exists_decode_eq {a : Answer} (h : a.Failed) {α : Type} (c : Codec α) :
    ∃ e, Action.decode c a = .error e := by
  cases h with
  | unreachable message => exact ⟨_, rfl⟩
  | response body h => exact ⟨.api (.ofResponse _ body), by rw [Action.decode, if_pos h]⟩

theorem Failed.decode_ne_ok {a : Answer} (h : a.Failed) {α : Type} (c : Codec α) (x : α) :
    Action.decode c a ≠ .ok x := by
  obtain ⟨e, he⟩ := h.exists_decode_eq c
  rw [he]
  exact nofun

end Answer

/-! ## Serving a call -/

/-- an accepted write: the object and the revision it is left at -/
structure Write where
  name : String
  revision : String

/-- the object that a replacement or a status patch is about, and its body -/
def Call.edit? : Call → Option (String × Json)
  | .replace _ name body | .patchStatus _ name body => some (name, body)
  | _ => none

/-- an object that a write found is current with the body, and the object that it leaves -/
structure Edited (objs : StringMap Json) (name revision : String) (body doc doc' : Json) : Prop where
  found : objs.get? name = some doc
  current : Cluster.isCurrent body doc = true
  stands : doc'.Stands name (some revision)

/-- where there is one object, an edit is of that one -/
theorem Edited.eq_of_singleton {name name' revision : String} {object body doc doc' : Json}
    (h : Edited (.singleton name object) name' revision body doc doc') : name' = name ∧ doc = object := by
  exact StringMap.get?_singleton_eq_some.1 h.found

/-- a replacement takes the spec and keeps the status -/
structure Replaced (objs : StringMap Json) (name revision : String) (body doc doc' : Json) : Prop
    extends Edited objs name revision body doc doc' where
  spec : doc'.get? "spec" = body.get? "spec"
  status : doc'.get? "status" = doc.get? "status"
  rereads : body.Rereads → doc'.Rereads

/-- a status patch is merged into the status -/
structure Patched (objs : StringMap Json) (name revision : String) (patch doc doc' : Json) : Prop
    extends Edited objs name revision patch doc doc' where
  spec : doc'.get? "spec" = doc.get? "spec"
  status : doc'.get? "status" =
    some (Json.mergePatch (.ofOption (patch.get? "status")) (.ofOption (doc.get? "status")))
  rereads : doc.Rereads → doc'.Rereads

/-- how a call may be answered, which write it is, and what becomes of the objects -/
inductive Serves (objs : StringMap Json) : Call → Answer → Option Write → StringMap Json → Prop where
  | secret {name : String} {a : Answer} : Serves objs (.readSecret name) a none objs
  | listed {revision : String} {a : Answer}
    (ha : a.Carries (Cluster.listing revision (objs.values.map (Cluster.label .canonical)))) :
    Serves objs .list a none objs
  | found {v : SchemaVersion} {name : String} {doc : Json} {a : Answer} (hdoc : objs.get? name = some doc)
    (ha : a.Carries (Cluster.label v doc)) : Serves objs (.read v name) a none objs
  | missing {v : SchemaVersion} {name : String} {a : Answer} (hdoc : objs.get? name = none) (ha : a.Failed) :
    Serves objs (.read v name) a none objs
  /-- a new object has no status -/
  | created {v : SchemaVersion} {body doc : Json} {revision : String} {a : Answer}
    (hdoc : objs.get? (Cluster.nameOf body) = none) (hspec : doc.get? "spec" = body.get? "spec")
    (hstatus : doc.get? "status" = none) (hstands : doc.Stands (Cluster.nameOf body) (some revision))
    (ha : a.Carries (Cluster.label v doc)) :
    Serves objs (.create v body) a (some ⟨Cluster.nameOf body, revision⟩) (objs.insert (Cluster.nameOf body) doc)
  | taken {v : SchemaVersion} {body doc : Json} {a : Answer} (hdoc : objs.get? (Cluster.nameOf body) = some doc)
    (ha : a.Failed) : Serves objs (.create v body) a none objs
  | replaced {v : SchemaVersion} {name revision : String} {body doc doc' : Json} {a : Answer}
    (h : Replaced objs name revision body doc doc') (ha : a.Carries (Cluster.label v doc')) :
    Serves objs (.replace v name body) a (some ⟨name, revision⟩) (objs.insert name doc')
  | patched {v : SchemaVersion} {name revision : String} {patch doc doc' : Json} {a : Answer}
    (h : Patched objs name revision patch doc doc') (ha : a.Carries (Cluster.label v doc')) :
    Serves objs (.patchStatus v name patch) a (some ⟨name, revision⟩) (objs.insert name doc')
  /-- the object is gone, or stands at another revision than the write carries -/
  | conflicting {call : Call} {name : String} {body : Json} {a : Answer} (hcall : call.edit? = some (name, body))
    (hdoc : ∀ doc, objs.get? name = some doc → Cluster.isCurrent body doc = false) (ha : a.Failed) :
    Serves objs call a none objs

namespace Serves

variable {objs objs' : StringMap Json} {call : Call} {a : Answer} {w : Option Write} {v : SchemaVersion} {name : String}

/-! ### Call by call -/

theorem secret_cases (h : Serves objs (.readSecret name) a w objs') : w = none ∧ objs' = objs := by
  cases h with
  | secret => exact ⟨rfl, rfl⟩
  | conflicting hcall _ _ => exact absurd hcall nofun

theorem list_cases (h : Serves objs .list a w objs') :
    w = none ∧ objs' = objs ∧
      ∃ revision, a.Carries (Cluster.listing revision (objs.values.map (Cluster.label .canonical))) := by
  cases h with
  | listed ha => exact ⟨rfl, rfl, _, ha⟩
  | conflicting hcall _ _ => exact absurd hcall nofun

theorem read_cases (h : Serves objs (.read v name) a w objs') :
    w = none ∧ objs' = objs ∧
      ((∃ doc, objs.get? name = some doc ∧ a.Carries (Cluster.label v doc)) ∨ objs.get? name = none ∧ a.Failed) := by
  cases h with
  | found hdoc ha => exact ⟨rfl, rfl, Or.inl ⟨_, hdoc, ha⟩⟩
  | missing hdoc ha => exact ⟨rfl, rfl, Or.inr ⟨hdoc, ha⟩⟩
  | conflicting hcall _ _ => exact absurd hcall nofun

/-- an answer to a read that decodes is the object as it is stored, whichever version it was read under -/
theorem exists_of_decode_read {σ : Type} {k : Kind σ} {x : Resource σ} (h : Serves objs (.read v name) a w objs')
    (hstored : Stored objs) (hx : Action.decode k.codec a = .ok x) :
    ∃ doc revision, objs.get? name = some doc ∧ doc.Stands name (some revision) ∧ k.codec.decode doc = .ok x := by
  rcases h.read_cases.2.2 with ⟨doc, hdoc, ha⟩ | ⟨-, hfailed⟩
  · obtain ⟨revision, hstands⟩ := hstored name doc hdoc
    exact ⟨doc, revision, hdoc, hstands, (hstands.decode_label_iff v).1 ((ha.decode_ok_iff k.codec).1 hx)⟩
  · exact absurd hx (hfailed.decode_ne_ok _ _)

theorem create_cases {body : Json} (h : Serves objs (.create v body) a w objs') :
    (∃ doc revision, objs.get? (Cluster.nameOf body) = none ∧ w = some ⟨Cluster.nameOf body, revision⟩ ∧
      objs' = objs.insert (Cluster.nameOf body) doc ∧ doc.get? "spec" = body.get? "spec" ∧ doc.get? "status" = none ∧
      doc.Stands (Cluster.nameOf body) (some revision) ∧ a.Carries (Cluster.label v doc)) ∨
    (w = none ∧ objs' = objs ∧ a.Failed ∧ ∃ doc, objs.get? (Cluster.nameOf body) = some doc) := by
  cases h with
  | created hdoc hspec hstatus hstands ha =>
    exact Or.inl ⟨_, _, hdoc, rfl, rfl, hspec, hstatus, hstands, ha⟩
  | taken hdoc ha => exact Or.inr ⟨rfl, rfl, ha, _, hdoc⟩
  | conflicting hcall _ _ => exact absurd hcall nofun

theorem replace_cases {body : Json} (h : Serves objs (.replace v name body) a w objs') :
    (∃ doc doc' revision, w = some ⟨name, revision⟩ ∧ objs' = objs.insert name doc' ∧
      Replaced objs name revision body doc doc' ∧ a.Carries (Cluster.label v doc')) ∨
    (w = none ∧ objs' = objs ∧ a.Failed ∧ ∀ doc, objs.get? name = some doc → Cluster.isCurrent body doc = false) := by
  cases h with
  | replaced h ha => exact Or.inl ⟨_, _, _, rfl, rfl, h, ha⟩
  | conflicting hcall hdoc ha =>
    obtain ⟨rfl, rfl⟩ := Prod.mk.inj (Option.some.inj hcall)
    exact Or.inr ⟨rfl, rfl, ha, hdoc⟩

theorem patch_cases {patch : Json} (h : Serves objs (.patchStatus v name patch) a w objs') :
    (∃ doc doc' revision, w = some ⟨name, revision⟩ ∧ objs' = objs.insert name doc' ∧
      Patched objs name revision patch doc doc' ∧ a.Carries (Cluster.label v doc')) ∨
    (w = none ∧ objs' = objs ∧ a.Failed ∧ ∀ doc, objs.get? name = some doc → Cluster.isCurrent patch doc = false) := by
  cases h with
  | patched h ha => exact Or.inl ⟨_, _, _, rfl, rfl, h, ha⟩
  | conflicting hcall hdoc ha =>
    obtain ⟨rfl, rfl⟩ := Prod.mk.inj (Option.some.inj hcall)
    exact Or.inr ⟨rfl, rfl, ha, hdoc⟩

/-! ### Objects -/

/-- what is not written stays -/
theorem objects_eq (h : Serves objs call a none objs') : objs' = objs := by
  cases h <;> rfl

/-- only a write is accepted as one -/
theorem isWrite {w : Write} (h : Serves objs call a (some w) objs') : call.isWrite = true := by
  cases h <;> rfl

/-- a write leaves its object at its revision -/
theorem stands {w : Write} (h : Serves objs call a (some w) objs') :
    ∃ doc, objs' = objs.insert w.name doc ∧ doc.Stands w.name (some w.revision) := by
  cases h with
  | created _ _ _ hstands _ => exact ⟨_, rfl, hstands⟩
  | replaced h _ => exact ⟨_, rfl, h.stands⟩
  | patched h _ => exact ⟨_, rfl, h.stands⟩

theorem stored (h : Serves objs call a w objs') (hobjs : Stored objs) : Stored objs' := by
  cases w with
  | none => exact h.objects_eq ▸ hobjs
  | some w =>
    obtain ⟨doc, rfl, hdoc⟩ := h.stands
    exact hobjs.insert hdoc

end Serves

/-! ## Stores -/

/-- a call whose body, if it has one, is an object of the name that the call is about, or a normal patch -/
def Call.Proper : Call → Prop
  | .create _ body => ∃ name revision, body.Stands name revision
  | .replace _ name body => ∃ revision, body.Stands name revision
  | .patchStatus _ _ patch => patch.Normal
  | .readSecret _ | .list | .read _ _ => True

/-- a server that holds the objects of a namespace and serves proper calls on them -/
structure Store (namespaceName : String) (σ : Type) where
  objects : σ → StringMap Json
  serve : σ → Request → Answer × σ
  lawful : ∀ (s : σ) (r : Request), r.namespaceName = namespaceName → r.HasPlainNames → r.call.Proper →
    Stored (objects s) → ∃ w, Serves (objects s) r.call (serve s r).1 w (objects (serve s r).2)

end MigrationOperator
