/-
What a write asks of the cluster, and in which order.

A resource without a revision is created, and its status is written at the revision that the creation answered. One with a
revision gets its status first, at that revision, and is replaced at the revision that the status write answered. `Contract`
lists the conversations of a write, one constructor for each way in which it can go.

Results:
- `upsert_contract`: the conversations of a write are those of the contract, for every resource and every behaviour of the
  cluster. A resource with a status is replaced only once its status write was accepted, and the body of a replacement is
  what is written of the resource, with another revision and nothing else changed (`Json.Repinned`).
- `exists_unsent`: a request that cannot be built is not sent. Of an object without a name nothing is, although it has
  a revision and a status.
-/
import MigrationOperator.Proofs.Api.Conversation
import MigrationOperator.Proofs.Store.Basic
import MigrationOperator.Writing

namespace MigrationOperator

/-! ## The body of a replacement -/

/-- a document at another revision, and with nothing else changed -/
structure Json.Repinned (revision : Option String) (j j' : Json) : Prop where
  revision : j'.at? ["metadata", "resourceVersion"] = revision.map .str
  metadata : ∀ key, key ≠ "resourceVersion" → j'.at? ["metadata", key] = j.at? ["metadata", key]
  others : ∀ key, key ≠ "metadata" → j'.get? key = j.get? key

namespace Kind

variable {σ : Type} {k : Kind σ}

/-- the members that are written of a resource -/
theorem get?_write (r : Resource σ) (key : String) : (k.write r).get? key =
    if key = "kind" then some (.str SchemaVersion.kind)
    else if key = "apiVersion" then some (.str k.version.apiVersion)
    else if key = "metadata" then some (Metadata.codec.write r.metadata)
    else if key = "spec" then some (k.spec.write r.spec)
    else if key = "status" then r.status.map Status.codec.write
    else none := by
  have hnames : ["metadata", "spec", "status"].Nodup := by decide
  have hfields : Entries.find? key (k.fields.write r).members = _ := Codec.find?_write_record (by exact hnames) r key
  have hobj : k.fields.write r = .obj (k.fields.write r).members := rfl
  show (((k.fields.write r).set "apiVersion" (.str k.version.apiVersion)).set "kind" (.str SchemaVersion.kind)).get? key = _
  rw [hobj]
  show Entries.find? key (Entries.insert "kind" _ (Entries.insert "apiVersion" _ _)) = _
  rw [Entries.find?_insert, Entries.find?_insert, hfields]
  cases hs : r.status <;> simp [Columns.written?, Column.required, Column.optional, Codec.nullable]

theorem repinned_write (r : Resource σ) (revision : Option String) :
    (k.write r).Repinned revision (k.write (r.atRevision revision)) := by
  have hmetadata : ∀ r : Resource σ, (k.write r).get? "metadata" = some (Metadata.codec.write r.metadata) := fun r => by
    simp [get?_write]
  have hmember : ∀ (r : Resource σ) key, (k.write r).at? ["metadata", key] =
      Entries.find? key (Metadata.codec.write r.metadata).members := fun r key => Json.at?_pair (hmetadata r)
  constructor
  · rw [hmember]
    refine (Codec.find?_write_record (by decide) _ _).trans ?_
    cases revision <;> rfl
  · intro key hkey
    rw [hmember, hmember]
    refine (Codec.find?_write_record (by decide) _ _).trans (Eq.trans ?_ (Codec.find?_write_record (by decide) _ _).symm)
    simp [Columns.written?, Column.optional, Resource.atRevision, hkey]
  · intro key hkey
    simp only [get?_write, if_neg hkey]
    rfl

end Kind

namespace Writing

variable {σ : Type}

/-! ## The conversations of a write -/

/-- the request that creates a resource -/
def creation (c : Context) (k : Kind σ) (r : Resource σ) : Request := ⟨c.namespaceName, .create k.version (k.write r)⟩

/-- the request that sets the status of a resource at a revision -/
def description (c : Context) (k : Kind σ) (r : Resource σ) (revision : Option String) (status : Status) : Request :=
  ⟨r.metadata.namespaceName.getD c.defaultNamespace, .patchStatus k.version r.name (statusPatch revision status)⟩

/-- the request that replaces a resource -/
def replacement (c : Context) (k : Kind σ) (r : Resource σ) : Request :=
  ⟨c.namespaceName, .replace k.version r.name (k.write r)⟩

/-- a schema-less answer as a resource -/
def typed (k : Kind σ) (x : Opaque) : Except OperatorError (Resource σ) := (k.codec.decode x.write).mapError .serialization

/-- what a write says, and what it returns -/
inductive Contract (c : Context) (k : Kind σ) (r : Resource σ) :
    List Exchange → Except OperatorError (Resource σ) → Prop where
  /-- without a status, a creation is all -/
  | created {es : List Exchange} {result : Except OperatorError (Resource σ)} (hrevision : r.metadata.resourceVersion = none)
    (hstatus : r.status = none) (h : Action.Sent k.codec (creation c k r) es result) : Contract c k r es result
  /-- nothing follows a creation that failed -/
  | notCreated {es : List Exchange} {e : OperatorError} {status : Status} (hrevision : r.metadata.resourceVersion = none)
    (hstatus : r.status = some status) (h : Action.Sent k.codec (creation c k r) es (.error e)) :
    Contract c k r es (.error e)
  /-- the status is written at the revision that the creation answered -/
  | described {before after : List Exchange} {status : Status} {created : Resource σ}
    {patched : Except OperatorError Opaque} (hrevision : r.metadata.resourceVersion = none)
    (hstatus : r.status = some status) (hcreated : Action.Sent k.codec (creation c k r) before (.ok created))
    (h : Action.Sent Opaque.codec (description c k r created.metadata.resourceVersion status) after patched) :
    Contract c k r (before ++ after) (patched.bind (typed k))
  /-- without a status, a replacement is all -/
  | replaced {es : List Exchange} {result : Except OperatorError (Resource σ)} {revision : String}
    (hrevision : r.metadata.resourceVersion = some revision) (hstatus : r.status = none)
    (h : Action.Sent k.codec (replacement c k r) es result) : Contract c k r es result
  /-- nothing follows a status write that failed -/
  | notDescribed {es : List Exchange} {e : OperatorError} {status : Status} {revision : String}
    (hrevision : r.metadata.resourceVersion = some revision) (hstatus : r.status = some status)
    (h : Action.Sent Opaque.codec (description c k r revision status) es (.error e)) : Contract c k r es (.error e)
  /-- the replacement is pinned to the revision that the status write answered -/
  | describedAndReplaced {before after : List Exchange} {status : Status} {revision : String} {patched : Opaque}
    {result : Except OperatorError (Resource σ)} (hrevision : r.metadata.resourceVersion = some revision)
    (hstatus : r.status = some status)
    (hpatched : Action.Sent Opaque.codec (description c k r revision status) before (.ok patched))
    (h : Action.Sent k.codec (replacement c k (r.atRevision patched.metadata.resourceVersion)) after result) :
    Contract c k r (before ++ after) result

variable {c : Context} {k : Kind σ} {r : Resource σ} {es : List Exchange} {result : Except OperatorError (Resource σ)}

/-! ### The write of each kind of resource -/

theorem run_readBack (k : Kind σ) (x : Opaque) : (readBack k x).run = .done (typed k x) := by
  unfold readBack typed
  cases k.codec.decode x.write <;> rfl

theorem upsert_eq_creation (hrevision : r.metadata.resourceVersion = none) (hstatus : r.status = none) :
    upsert c k r = Action.request k.codec (creation c k r) := by
  simp [upsert, create, writeStatus, Resource.atRevision, creation, hrevision, hstatus]

theorem upsert_eq_creation_description {status : Status} (hrevision : r.metadata.resourceVersion = none)
    (hstatus : r.status = some status) :
    upsert c k r = Action.request k.codec (creation c k r) >>= fun created =>
      Action.request Opaque.codec (description c k r created.metadata.resourceVersion status) >>= readBack k := by
  simp only [upsert, hrevision, Option.isNone_none, ↓reduceIte, create, writeStatus, Resource.atRevision, hstatus,
    bind_pure_comp, bind_map_left, creation]
  rfl

theorem upsert_eq_replacement {revision : String} (hrevision : r.metadata.resourceVersion = some revision)
    (hstatus : r.status = none) : upsert c k r = Action.request k.codec (replacement c k r) := by
  simp [upsert, replace, writeStatus, replacement, hrevision, hstatus]

theorem upsert_eq_description_replacement {revision : String} {status : Status}
    (hrevision : r.metadata.resourceVersion = some revision) (hstatus : r.status = some status) :
    upsert c k r = Action.request Opaque.codec (description c k r revision status) >>= fun patched =>
      Action.request k.codec (replacement c k (r.atRevision patched.metadata.resourceVersion)) := by
  simp only [upsert, hrevision, Option.isNone_some, Bool.false_eq_true, ↓reduceIte, replace, writeStatus, hstatus,
    bind_pure_comp, bind_map_left]
  rfl

/-- what is read back of a status write is said after nothing more -/
theorem reaches_readBack_iff {x : Opaque} :
    (readBack k x).run.Reaches es (.done result) ↔ es = [] ∧ result = typed k x := by
  rw [run_readBack]
  constructor
  · intro h
    obtain ⟨hes, hdone⟩ := h.of_done
    exact ⟨hes, Program.done.inj hdone⟩
  · rintro ⟨rfl, rfl⟩
    exact .start _

theorem reaches_description_iff {q : Request} :
    (Action.request Opaque.codec q >>= readBack k).run.Reaches es (.done result) ↔
      ∃ patched, Action.Sent Opaque.codec q es patched ∧ result = patched.bind (typed k) := by
  rw [Action.reaches_bind_iff]
  simp only [Action.reaches_request_iff, reaches_readBack_iff]
  constructor
  · rintro (⟨e, h, rfl⟩ | ⟨before, after, x, rfl, h, rfl, rfl⟩)
    · exact ⟨_, h, rfl⟩
    · rw [List.append_nil]
      exact ⟨_, h, rfl⟩
  · rintro ⟨patched, h, rfl⟩
    cases patched with
    | error e => exact Or.inl ⟨e, h, rfl⟩
    | ok x => exact Or.inr ⟨es, [], x, (List.append_nil es).symm, h, rfl, rfl⟩

/-- the conversations of a write are those of the contract -/
theorem reaches_upsert_iff : (upsert c k r).run.Reaches es (.done result) ↔ Contract c k r es result := by
  constructor
  · intro h
    cases hrevision : r.metadata.resourceVersion with
    | none =>
      cases hstatus : r.status with
      | none =>
        rw [upsert_eq_creation hrevision hstatus, Action.reaches_request_iff] at h
        exact .created hrevision hstatus h
      | some status =>
        rw [upsert_eq_creation_description hrevision hstatus, Action.reaches_bind_iff] at h
        simp only [Action.reaches_request_iff, reaches_description_iff] at h
        rcases h with ⟨e, h, rfl⟩ | ⟨before, after, created, rfl, hcreated, patched, h, rfl⟩
        · exact .notCreated hrevision hstatus h
        · exact .described hrevision hstatus hcreated h
    | some revision =>
      cases hstatus : r.status with
      | none =>
        rw [upsert_eq_replacement hrevision hstatus, Action.reaches_request_iff] at h
        exact .replaced hrevision hstatus h
      | some status =>
        rw [upsert_eq_description_replacement hrevision hstatus, Action.reaches_bind_iff] at h
        simp only [Action.reaches_request_iff] at h
        rcases h with ⟨e, h, rfl⟩ | ⟨before, after, patched, rfl, hpatched, h⟩
        · exact .notDescribed hrevision hstatus h
        · exact .describedAndReplaced hrevision hstatus hpatched h
  · intro h
    cases h with
    | created hrevision hstatus h =>
      rw [upsert_eq_creation hrevision hstatus]
      exact Action.reaches_request_iff.2 h
    | notCreated hrevision hstatus h =>
      rw [upsert_eq_creation_description hrevision hstatus]
      exact Action.reaches_bind_iff.2 (Or.inl ⟨_, Action.reaches_request_iff.2 h, rfl⟩)
    | described hrevision hstatus hcreated h =>
      rw [upsert_eq_creation_description hrevision hstatus]
      exact Action.reaches_bind_iff.2 (Or.inr
        ⟨_, _, _, rfl, Action.reaches_request_iff.2 hcreated, reaches_description_iff.2 ⟨_, h, rfl⟩⟩)
    | replaced hrevision hstatus h =>
      rw [upsert_eq_replacement hrevision hstatus]
      exact Action.reaches_request_iff.2 h
    | notDescribed hrevision hstatus h =>
      rw [upsert_eq_description_replacement hrevision hstatus]
      exact Action.reaches_bind_iff.2 (Or.inl ⟨_, Action.reaches_request_iff.2 h, rfl⟩)
    | describedAndReplaced hrevision hstatus hpatched h =>
      rw [upsert_eq_description_replacement hrevision hstatus]
      exact Action.reaches_bind_iff.2 (Or.inr
        ⟨_, _, _, rfl, Action.reaches_request_iff.2 hpatched, Action.reaches_request_iff.2 h⟩)

/-! ### The order of the requests -/

/-- of two exchanges at most, one that is not the first comes right after it -/
theorem eq_singleton_of_append {before after rest : List Exchange} {first e : Exchange}
    (h : before ++ e :: after = first :: rest) (he : e ≠ first) (hrest : rest.length ≤ 1) : before = [first] := by
  cases before with
  | nil => exact absurd (List.cons.inj h).1 he
  | cons f before =>
    rw [List.cons_append] at h
    obtain ⟨rfl, rfl⟩ := List.cons.inj h
    rw [List.length_append, List.length_cons] at hrest
    have hbefore : before = [] := List.length_eq_zero_iff.1 (by omega)
    rw [hbefore]

/-- a resource with a status is replaced only once its status was written -/
theorem Contract.exists_accepted {before after : List Exchange} {e : Exchange} {status : Status}
    (h : Contract c k r (before ++ e :: after) result) (hput : e.request.method = .put)
    (hstatus : r.status = some status) :
    ∃ a p, before = [⟨description c k r r.metadata.resourceVersion status, a⟩] ∧ Action.decode Opaque.codec a = .ok p := by
  have hmem : e ∈ before ++ e :: after := List.mem_append_right before List.mem_cons_self
  have hcreation : e.request ≠ creation c k r := by
    intro he
    rw [he] at hput
    exact absurd hput nofun
  have hdescription : ∀ revision status, e.request ≠ description c k r revision status := by
    intro revision status he
    rw [he] at hput
    exact absurd hput nofun
  generalize hes : before ++ e :: after = es at h hmem
  cases h with
  | created _ hs => exact absurd (hstatus.symm.trans hs) nofun
  | notCreated _ _ h => exact absurd (h.request_eq hmem) hcreation
  | described _ _ hcreated h =>
    rcases List.mem_append.1 hmem with hmem | hmem
    · exact absurd (hcreated.request_eq hmem) hcreation
    · exact absurd (h.request_eq hmem) (hdescription _ _)
  | replaced _ hs => exact absurd (hstatus.symm.trans hs) nofun
  | notDescribed _ _ h => exact absurd (h.request_eq hmem) (hdescription _ _)
  | @describedAndReplaced _ _ _ revision patched _ hrevision hs hpatched h =>
    obtain rfl := Option.some.inj (hstatus.symm.trans hs)
    obtain ⟨a, rfl, ha⟩ := hpatched.exists_answer
    rw [hrevision]
    have hother : e ≠ ⟨description c k r revision status, a⟩ := fun he => hdescription _ _ (congrArg Exchange.request he)
    exact ⟨a, patched, eq_singleton_of_append hes hother h.length_le_one, ha⟩

/-- **What a write says.** The requests of a write and what it returns are those of the contract, for every resource of
either schema and whatever the cluster answers. A resource with a status is replaced only after its status write was
accepted, and a replacement is the resource as it is written, at another revision and otherwise unchanged. -/
theorem upsert_contract (c : Context) (k : Kind σ) (r : Resource σ) :
    (∀ es result, (upsert c k r).run.Reaches es (.done result) ↔ Contract c k r es result) ∧
    (∀ before e after result status, Contract c k r (before ++ e :: after) result → e.request.method = .put →
      r.status = some status → ∃ a p, before = [⟨description c k r r.metadata.resourceVersion status, a⟩] ∧
        Action.decode Opaque.codec a = .ok p) ∧
    ∀ revision, (k.write r).Repinned revision (k.write (r.atRevision revision)) :=
  ⟨fun _ _ => reaches_upsert_iff, fun _ _ _ _ _ h hput hstatus => h.exists_accepted hput hstatus,
    Kind.repinned_write r⟩

/-- nothing is sent of an object without a name -/
theorem exists_unsent : ∃ (c : Context) (r : LegacyResource) (revision : String) (status : Status),
    r.metadata.resourceVersion = some revision ∧ r.status = some status ∧
      (upsert c Legacy.kind r).run = .done (.error (.unsendable .emptyName)) :=
  ⟨{ namespaceName := "test" }, ⟨{ resourceVersion := some "5" }, {}, some {}⟩, "5", {}, rfl, rfl, rfl⟩

end Writing

end MigrationOperator
