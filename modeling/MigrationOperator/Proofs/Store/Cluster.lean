/-
The cluster held in memory is a store.

Without injected faults and with the kind installed, `Cluster.serve` answers every proper call with plain names as
`Serves` asks for (`Cluster.serves_handle`), and it stays like that. So what is proved of stores holds of the cluster.
-/
import MigrationOperator.Proofs.Store.Basic

namespace MigrationOperator

namespace Json

/-! ## A new revision -/

/-- the object with another revision put in -/
def revised (j : Json) (revision : String) : Json := j.setIn "metadata" "resourceVersion" (.str revision)

section

variable {name : String} {revision : Option String} {j : Json}

theorem Stands.get?_revised (h : j.Stands name revision) {ns : List (String × Json)}
    (hns : j.get? "metadata" = some (.obj ns)) (r k : String) :
    (j.revised r).get? k =
      if k = "metadata" then some (.obj (Entries.insert "resourceVersion" (.str r) ns)) else j.get? k := by
  obtain ⟨ms, rfl, -⟩ := h.exists_obj
  rw [revised, setIn, hns, get?_set_obj]
  rfl

theorem Stands.revised (h : j.Stands name revision) (r : String) : (j.revised r).Stands name (some r) := by
  obtain ⟨ns, m, hns, hordered, hm, hname, -⟩ := h.exists_metadata
  have hread := Metadata.decode_insert_revision hordered hm r
  have hnormal : (obj (Entries.insert "resourceVersion" (.str r) ns)).Normal :=
    ⟨Entries.ordered_insert _ _ hordered,
      normalMembers_iff.2 (normal_of_mem_insert trivial (h.normal.get? hns).members.2)⟩
  refine ⟨?_, _, { m with resourceVersion := some r }, ?_, hread, hname, rfl⟩
  · rw [Json.revised, setIn, hns]
    exact normal_set _ h.normal hnormal
  · rw [h.get?_revised hns, if_pos rfl]

theorem Stands.rereads_revised (h : j.Stands name revision) (hr : j.Rereads) (r : String) : (j.revised r).Rereads := by
  obtain ⟨ns, m, hns, hordered, hm, -⟩ := h.exists_metadata
  obtain ⟨m', hm'⟩ := hr _ m hns hm
  intro md x hmd hx
  rw [h.get?_revised hns, if_pos rfl] at hmd
  obtain rfl := Option.some.inj hmd
  have hread := Metadata.decode_insert_revision hordered hm r
  obtain rfl := Except.ok.inj (hread.symm.trans hx)
  exact ⟨_, Metadata.decode_write_revision hm' (some r)⟩

theorem Stands.get?_revised_of_ne (h : j.Stands name revision) (r : String) {k : String} (hk : k ≠ "metadata") :
    (j.revised r).get? k = j.get? k := by
  obtain ⟨ns, m, hns, -⟩ := h.exists_metadata
  rw [h.get?_revised hns, if_neg hk]

end

end Json

namespace Cluster

/-! ## Serving -/

theorem carries_ofJson {code : Nat} (j : Json) (h : isErrorCode code = false) : (Answer.ofJson code j).Carries j :=
  ⟨code, j.text, rfl, h⟩

theorem failed_failure {code : Nat} (reason : String) (h : isErrorCode code = true) : (failure code reason).Failed :=
  .response _ h

theorem get?_keepStatus {name : String} {revision : Option String} {body : Json} (h : body.Stands name revision)
    (object : Json) (k : String) :
    (keepStatus body object).get? k = if k = "status" then object.get? "status" else body.get? k := by
  obtain ⟨ms, rfl, -⟩ := h.exists_obj
  unfold keepStatus
  cases object.get? "status" with
  | none => rw [Json.get?_unset_obj]
  | some status => rw [Json.get?_set_obj]

theorem stands_keepStatus {name : String} {revision : Option String} {body object : Json}
    (h : body.Stands name revision) (hobject : object.Normal) : (keepStatus body object).Stands name revision := by
  refine h.congr ?_ (by rw [get?_keepStatus h, if_neg (by decide)])
  unfold keepStatus
  cases hs : object.get? "status" with
  | none => exact Json.normal_unset _ h.normal
  | some status => exact Json.normal_set _ h.normal (hobject.get? hs)

/-- an accepted write is given the next revision, and nothing else is -/
structure Counts (c c' : Cluster) (w : Option Write) : Prop where
  revision : c'.revision = c.revision + w.toList.length
  next : ∀ v, w = some v → v.revision = toString (c.revision + 1)

theorem Counts.refl (c : Cluster) : c.Counts c none := ⟨rfl, fun _ hv => absurd hv.symm (Option.some_ne_none _)⟩

theorem counts_store (c : Cluster) (name : String) (object : Json) :
    c.Counts (c.store name object).2 (some ⟨name, toString (c.revision + 1)⟩) :=
  ⟨rfl, fun _ hv => Option.some.inj hv ▸ rfl⟩

section

variable {c : Cluster} {v : SchemaVersion} {name : String} {body : Json}

theorem serves_create {revision : Option String} (hbody : body.Stands name revision) :
    ∃ w, Serves c.objects (.create v body) (c.create v body).1 w (c.create v body).2.objects ∧
      c.Counts (c.create v body).2 w := by
  cases hdoc : c.objects.get? (nameOf body) with
  | some doc =>
    simp only [create, hdoc]
    exact ⟨none, .taken hdoc (failed_failure _ rfl), .refl c⟩
  | none =>
    have hget : ∀ k, (body.unset "status").get? k = if k = "status" then none else body.get? k := by
      obtain ⟨ms, rfl, -⟩ := hbody.exists_obj
      exact fun k => Json.get?_unset_obj ms "status" k
    have hunset : (body.unset "status").Stands (nameOf body) revision := by
      rw [hbody.nameOf_eq]
      exact hbody.congr (Json.normal_unset _ hbody.normal) (by rw [hget, if_neg (by decide)])
    simp only [create, hdoc]
    refine ⟨some ⟨nameOf body, toString (c.revision + 1)⟩, .created hdoc ?_ ?_ (hunset.revised _)
      (carries_ofJson _ rfl), counts_store c _ _⟩
    · exact (hunset.get?_revised_of_ne _ (by decide)).trans (hget "spec")
    · exact (hunset.get?_revised_of_ne _ (by decide)).trans (hget "status")

/-- an update is served when it is served wherever the body is current -/
theorem serves_update {call : Call} {change : Json → Json} (hcall : call.edit? = some (name, body))
    (h : ∀ doc, c.objects.get? name = some doc → isCurrent body doc = true →
      Serves c.objects call (.ofJson 200 (label v ((change doc).revised (toString (c.revision + 1)))))
        (some ⟨name, toString (c.revision + 1)⟩)
        (c.objects.insert name ((change doc).revised (toString (c.revision + 1))))) :
    ∃ w, Serves c.objects call (c.update v name body change).1 w (c.update v name body change).2.objects ∧
      c.Counts (c.update v name body change).2 w := by
  simp only [update]
  cases hdoc : c.objects.get? name with
  | none => exact ⟨none, .conflicting hcall (by simp [hdoc]) (failed_failure _ rfl), .refl c⟩
  | some doc =>
    dsimp only
    cases hpin : isCurrent body doc with
    | false =>
      refine ⟨none, .conflicting hcall (fun doc' hdoc' => ?_) (failed_failure _ rfl), .refl c⟩
      obtain rfl := Option.some.inj (hdoc.symm.trans hdoc')
      exact hpin
    | true => exact ⟨_, h doc hdoc hpin, counts_store c _ _⟩

theorem serves_replace (hstored : Stored c.objects) {revision : Option String} (hbody : body.Stands name revision) :
    ∃ w, Serves c.objects (.replace v name body) (c.update v name body (keepStatus body)).1 w
        (c.update v name body (keepStatus body)).2.objects ∧
      c.Counts (c.update v name body (keepStatus body)).2 w := by
  refine serves_update rfl fun doc hdoc hpin => ?_
  obtain ⟨r, hdocStands⟩ := hstored name doc hdoc
  have hkept := stands_keepStatus hbody hdocStands.normal
  refine .replaced ⟨⟨hdoc, hpin, hkept.revised _⟩, ?_, ?_, fun hr => ?_⟩ (carries_ofJson _ rfl)
  · refine (hkept.get?_revised_of_ne _ (by decide)).trans ?_
    rw [get?_keepStatus hbody, if_neg (by decide)]
  · refine (hkept.get?_revised_of_ne _ (by decide)).trans ?_
    rw [get?_keepStatus hbody, if_pos rfl]
  · exact hkept.rereads_revised (hr.congr (by rw [get?_keepStatus hbody, if_neg (by decide)])) _

theorem get?_mergePart {revision : Option String} {part : String} {patch object : Json}
    (h : object.Stands name revision) (k : String) :
    (mergePart part patch object).get? k =
      if k = part then some (Json.mergePatch patch (.ofOption (object.get? part))) else object.get? k := by
  obtain ⟨ms, rfl, -⟩ := h.exists_obj
  exact Json.get?_set_obj ms part k _

theorem stands_mergePart {revision : Option String} {part : String} {patch object : Json}
    (h : object.Stands name revision) (hpatch : patch.Normal) (hpart : part ≠ "metadata") :
    (mergePart part patch object).Stands name revision := by
  refine h.congr (Json.normal_set _ h.normal ?_) (by rw [get?_mergePart h, if_neg hpart.symm])
  exact Json.normal_mergePatch hpatch (Json.normal_ofOption fun _ hv => h.normal.get? hv)

theorem serves_patchStatus (hstored : Stored c.objects) {patch : Json} (hpatch : patch.Normal) :
    ∃ w, Serves c.objects (.patchStatus v name patch)
        (c.update v name patch (mergePart "status" (.ofOption (patch.get? "status")))).1 w
        (c.update v name patch (mergePart "status" (.ofOption (patch.get? "status")))).2.objects ∧
      c.Counts (c.update v name patch (mergePart "status" (.ofOption (patch.get? "status")))).2 w := by
  refine serves_update rfl fun doc hdoc hpin => ?_
  obtain ⟨r, hdocStands⟩ := hstored name doc hdoc
  have hstatus : (Json.ofOption (patch.get? "status")).Normal := Json.normal_ofOption fun _ hv => hpatch.get? hv
  have hmerged : (mergePart "status" (.ofOption (patch.get? "status")) doc).Stands name (some r) :=
    stands_mergePart hdocStands hstatus (by decide)
  refine .patched ⟨⟨hdoc, hpin, hmerged.revised _⟩, ?_, ?_, fun hr => ?_⟩ (carries_ofJson _ rfl)
  · refine (hmerged.get?_revised_of_ne _ (by decide)).trans ?_
    rw [get?_mergePart hdocStands, if_neg (by decide)]
  · refine (hmerged.get?_revised_of_ne _ (by decide)).trans ?_
    rw [get?_mergePart hdocStands, if_pos rfl]
  · exact hmerged.rereads_revised (hr.congr (by rw [get?_mergePart hdocStands, if_neg (by decide)])) _

/-- a call on an installed kind is answered as a store answers it, and writes are counted -/
theorem serves_handle (hserved : c.served = true) {call : Call} (hproper : call.Proper) (hstored : Stored c.objects) :
    ∃ w, Serves c.objects call (c.handle call).1 w (c.handle call).2.objects ∧ c.Counts (c.handle call).2 w := by
  have hhandle : c.handle call = c.respond call := by simp [handle, hserved]
  rw [hhandle]
  cases call with
  | readSecret name => exact ⟨none, .secret, .refl c⟩
  | list => exact ⟨none, .listed (carries_ofJson _ rfl), .refl c⟩
  | read v name =>
    refine ⟨none, ?_, .refl c⟩
    cases hdoc : c.objects.get? name with
    | none =>
      simp only [respond, hdoc]
      exact .missing hdoc (failed_failure _ rfl)
    | some doc =>
      simp only [respond, hdoc]
      exact .found hdoc (carries_ofJson _ rfl)
  | create v body =>
    obtain ⟨name, revision, hbody⟩ := hproper
    exact serves_create hbody
  | replace v name body =>
    obtain ⟨revision, hbody⟩ := hproper
    exact serves_replace hstored hbody
  | patchStatus v name patch => exact serves_patchStatus hstored hproper

end

/-- the kind is installed and no fault is due -/
structure Sound (c : Cluster) : Prop where
  served : c.served = true
  faults : c.faults = []

theorem sound_update {c : Cluster} (h : c.Sound) (v : SchemaVersion) (name : String) (body : Json)
    (change : Json → Json) : (c.update v name body change).2.Sound := by
  unfold update
  split
  · exact h
  · split
    · exact ⟨h.served, h.faults⟩
    · exact h

theorem sound_serve {c : Cluster} (h : c.Sound) (r : Request) : (c.serve r).2.Sound := by
  have hfault : takeFault r.method c.faults = none := by rw [h.faults]; rfl
  rw [serve, hfault]
  cases hcall : r.understood? with
  | none => exact h
  | some call =>
    show (c.handle call).2.Sound
    unfold handle
    split
    · exact h
    · cases call with
      | readSecret name => exact h
      | list => exact h
      | read v name => exact h
      | create v body =>
        rw [respond, create]
        split
        · exact h
        · exact ⟨h.served, h.faults⟩
      | replace v name body => exact sound_update h v name body _
      | patchStatus v name patch => exact sound_update h v name patch _

/-- a request with plain names gets the answer to its call -/
theorem serve_eq_respond {c : Cluster} (h : c.Sound) {r : Request} (hplain : r.HasPlainNames) :
    c.serve r = c.respond r.call := by
  have hfault : takeFault r.method c.faults = none := by rw [h.faults]; rfl
  rw [serve_of_plain hfault hplain, handle, h.served, Bool.not_true, Bool.and_false, if_neg Bool.false_ne_true]

theorem serves_serve {c : Cluster} (h : c.Sound) {r : Request} (hplain : r.HasPlainNames) (hproper : r.call.Proper)
    (hstored : Stored c.objects) :
    ∃ w, Serves c.objects r.call (c.serve r).1 w (c.serve r).2.objects ∧ c.Counts (c.serve r).2 w := by
  have hfault : takeFault r.method c.faults = none := by rw [h.faults]; rfl
  rw [serve_of_plain hfault hplain]
  exact serves_handle h.served hproper hstored

/-- the cluster as a store of any namespace -/
def asStore (namespaceName : String) : Store namespaceName { c : Cluster // c.Sound } where
  objects s := s.1.objects
  serve s r := ((s.1.serve r).1, ⟨(s.1.serve r).2, sound_serve s.2 r⟩)
  lawful s _ _ hplain hproper hstored :=
    let ⟨w, hserves, _⟩ := serves_serve s.2 hplain hproper hstored
    ⟨w, hserves⟩

end Cluster

end MigrationOperator
