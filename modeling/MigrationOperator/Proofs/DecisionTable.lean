/-
What a run decides, for every behaviour of the cluster.

A run against any server is followed along its conversation, one answer after another (`Ends.of_cons`, `Ends.exists_cons`).
The list alone decides the result when an object fits no schema or there are too many, and otherwise what is loaded of the
single object does. `decision_table` is the whole table: what has to come before a write, the results of a list that ends
the run, and, for a run whose requests can be built and whose answers read as they are meant to (`Buildable`, `Smooth`), the
outcome of every other run.
-/
import MigrationOperator.Proofs.Pipeline.Conversation
import MigrationOperator.Proofs.Pipeline.OnCluster

namespace MigrationOperator.Pipeline

variable {c : Context} {s : Stage} {es : List Exchange} {e : Exchange} {r : Request} {rep : Report Outcome}

/-! ## A run to its end -/

/-- from the stage a run has this conversation and ends with this report -/
def Ends (c : Context) (s : Stage) (es : List Exchange) (rep : Report Outcome) : Prop :=
  ∃ p, Runs c s p ∧ p.Reaches es (.done rep)

theorem ends_run {σ : Type} (serve : σ → Request → Answer × σ) (c : Context) (t : σ) :
    Ends c .listing ((run c).conversation serve t) ((run c).exec serve t).result :=
  ⟨run c, runs_run c, Program.reaches_conversation serve (run c) t⟩

/-- a finished run asks for nothing -/
theorem Ends.of_finished {rep' : Report Outcome} (h : Ends c (.finished rep') es rep) : es = [] ∧ rep = rep' := by
  obtain ⟨p, hp, hreach⟩ := h
  rw [hp.eq_done] at hreach
  obtain ⟨hes, hrep⟩ := hreach.of_done
  exact ⟨hes, Program.done.inj hrep⟩

/-- an answer takes it to the next stage -/
theorem Ends.of_cons (h : Ends c s (e :: es) rep) : s.request? c = some e.request ∧ Ends c (s.next e.answer) es rep := by
  obtain ⟨p, hp, hreach⟩ := h
  cases hreach with
  | ask hrest =>
    obtain ⟨hr, hnext⟩ := hp.of_send
    exact ⟨hr, _, hnext _, hrest⟩

/-- a request that can be sent is answered -/
theorem Ends.exists_cons (h : Ends c s es rep) (hr : s.request? c = some r) (hf : r.fault? = none) :
    ∃ a fs, es = ⟨r, a⟩ :: fs ∧ Ends c (s.next a) fs rep := by
  obtain ⟨p, hp, hreach⟩ := h
  obtain ⟨next, rfl, hnext⟩ := hp.exists_send_of_fault? hr hf
  obtain ⟨a, fs, rfl, hrest⟩ := hreach.exists_answer
  exact ⟨a, fs, rfl, next a, hnext a, hrest⟩

/-! ## What the list decides -/

/-- the objects of a version -/
def count (v : SchemaVersion) (ks : List Classified) : Nat := ks.countP (·.version = v)

/-- each is counted with those that came before it -/
theorem of_foldl_push (ks : List Classified) (cs : Candidates) : Census.of (ks.foldl Candidates.push cs) =
    ⟨cs.legacy.length + count .legacy ks, cs.canonical.length + count .canonical ks⟩ := by
  induction ks generalizing cs with
  | nil => rfl
  | cons k ks ih =>
    rw [List.foldl_cons, ih]
    cases k <;> simp [Candidates.push, count, Classified.version] <;> omega

/-- grouping keeps their numbers -/
theorem of_ofList (ks : List Classified) :
    Census.of (.ofList ks) = ⟨count .legacy ks, count .canonical ks⟩ := by
  rw [Candidates.ofList, of_foldl_push]
  simp [Candidates.empty]

theorem Stage.afterListing_eq_tooMany {ks : List Classified} (h : 2 ≤ ks.length) :
    afterListing (.ok ks) =
      .finished ⟨some (.of (.ofList ks)), .error (.tooMany ⟨count .legacy ks, count .canonical ks⟩)⟩ := by
  obtain ⟨hlegacy, hcanonical⟩ := Census.mk.inj (of_ofList ks)
  rw [← hlegacy, ← hcanonical]
  match ks, h with
  | .legacy _ :: _ :: _, _ => rfl
  | .canonical _ :: _ :: _, _ => rfl

/-! ## What else is asked -/

/-- the answer decodes as what it is read as, or says that there is nothing to read -/
def Answered (e : Exchange) : Prop :=
  match e.request.call with
  | .list => (∃ l, Action.decode ObjectList.codec e.answer = .ok l) ∨ e.answer.Absent
  | .read .legacy _ => (∃ l, Action.decode Legacy.kind.codec e.answer = .ok l) ∨ e.answer.Absent
  | .read .canonical _ => (∃ x, Action.decode Canonical.kind.codec e.answer = .ok x) ∨ e.answer.Absent
  | .create _ _ | .replace _ _ _ => ∃ x, Action.decode Canonical.kind.codec e.answer = .ok x
  | .patchStatus _ _ _ => ∃ d, Action.decode Opaque.codec e.answer = .ok d
  | .readSecret _ => True

/-- a conversation without faults; what a status patch answers is read back as canonical when it follows a creation -/
structure Smooth (es : List Exchange) : Prop where
  answered : ∀ e ∈ es, Answered e
  readBack : ∀ e ∈ es, ∀ e' ∈ es, ∀ v body v' n patch, e.request.call = .create v body →
    e'.request.call = .patchStatus v' n patch → ∀ d, Action.decode Opaque.codec e'.answer = .ok d →
    ∃ x, Canonical.kind.codec.decode d.write = .ok x

theorem Smooth.tail (h : Smooth (e :: es)) : Smooth es where
  answered f hf := h.answered f (List.mem_cons_of_mem e hf)
  readBack f hf f' hf' := h.readBack f (List.mem_cons_of_mem e hf) f' (List.mem_cons_of_mem e hf')

/-- every request that the answers lead to can be sent -/
structure Buildable (c : Context) (es : List Exchange) : Prop where
  list : Request.fault? ⟨c.namespaceName, .list⟩ = none
  read : ∀ e ∈ es, ∀ list d k, e.request.call = .list → Action.decode ObjectList.codec e.answer = .ok list →
    list.items = [d] → classify d = .ok k → Request.fault? ⟨c.namespaceName, .read k.version k.name⟩ = none
  write : ∀ e ∈ es, ∀ n l, e.request.call = .read .legacy n → Action.decode Legacy.kind.codec e.answer = .ok l →
    l.phase = .installed → ∀ r, WritesBack c l r → r.fault? = none

section

variable {l : LegacyResource} (hsmooth : Smooth es) (hwrite : ∀ r, WritesBack c l r → r.fault? = none)

include hsmooth hwrite

theorem Ends.migrated_of_replacing {revision : Option String} (h : Ends c (.replacing l revision) es rep) :
    ∃ z, rep.result = .ok (.migrated z) := by
  obtain ⟨a, fs, rfl, hrest⟩ := h.exists_cons rfl (hwrite _ (.replace revision))
  obtain ⟨z, hz⟩ := hsmooth.answered _ List.mem_cons_self
  rw [Stage.next, hz] at hrest
  obtain ⟨-, rfl⟩ := hrest.of_finished
  exact ⟨z, rfl⟩

theorem Ends.migrated_of_patching (h : Ends c (.patching l) es rep) : ∃ z, rep.result = .ok (.migrated z) := by
  obtain ⟨a, fs, rfl, hrest⟩ := h.exists_cons rfl (hwrite _ (.patch _))
  obtain ⟨d, hd⟩ := hsmooth.answered _ List.mem_cons_self
  rw [Stage.next, hd] at hrest
  exact hrest.migrated_of_replacing hsmooth.tail hwrite

theorem Ends.migrated_of_creating (h : Ends c (.creating l) es rep) : ∃ z, rep.result = .ok (.migrated z) := by
  obtain ⟨a, fs, rfl, hrest⟩ := h.exists_cons rfl (hwrite _ .create)
  obtain ⟨created, hcreated⟩ := hsmooth.answered _ List.mem_cons_self
  rw [Stage.next, hcreated] at hrest
  obtain ⟨a', gs, rfl, hlast⟩ := hrest.exists_cons rfl (hwrite _ (.patch _))
  obtain ⟨d, hd⟩ := hsmooth.tail.answered _ List.mem_cons_self
  obtain ⟨z, hz⟩ := hsmooth.readBack _ List.mem_cons_self _ (List.mem_cons_of_mem _ List.mem_cons_self) _ _ _ _ _ rfl rfl
    d hd
  rw [Stage.next, hd] at hlast
  dsimp only at hlast
  rw [hz] at hlast
  obtain ⟨-, rfl⟩ := hlast.of_finished
  exact ⟨z, rfl⟩

/-- an installed object that was loaded is migrated -/
theorem Ends.migrated_of_afterLoading (h : Ends c (.afterLoading l) es rep) (hphase : l.phase = .installed) :
    ∃ z, rep.result = .ok (.migrated z) := by
  rw [Stage.afterLoading, if_pos hphase] at h
  split at h
  · exact h.migrated_of_creating hsmooth hwrite
  · exact h.migrated_of_patching hsmooth hwrite

end

/-! ## The table -/

/-- what was asked before a write was asked -/
theorem exists_sighted_of_mem (h : (run c).Reaches es (.done rep)) (he : e ∈ es) (hw : e.request.isWrite = true) :
    ∃ l, Sighted c es l := by
  obtain ⟨before, after, rfl⟩ := List.append_of_mem he
  obtain ⟨next, hreach⟩ := h.exists_of_append
  obtain ⟨l, hsighted, -⟩ := exists_sighted hreach hw
  obtain ⟨x, listed, loaded, rest, rfl, hseen⟩ := hsighted.conversation
  exact ⟨l, x, listed, loaded, rest ++ e :: after, rfl, hseen⟩

/-- the list is asked for first, and decides how the run goes on -/
theorem Ends.of_listed {listed : Answer} {list : ObjectList}
    (h : Ends c .listing (⟨⟨c.namespaceName, .list⟩, listed⟩ :: es) rep)
    (hlist : Action.decode ObjectList.codec listed = .ok list) :
    Ends c (.afterListing (Candidates.classifyAll list.items)) es rep := by
  obtain ⟨-, hrest⟩ := h.of_cons
  rw [Stage.next] at hrest
  dsimp only at hrest
  rwa [hlist] at hrest

/-- a list that ends the run leaves nothing to ask -/
theorem Ends.of_finished_listing {listed : Answer} {list : ObjectList} {rep' : Report Outcome}
    (h : Ends c .listing (⟨⟨c.namespaceName, .list⟩, listed⟩ :: es) rep)
    (hlist : Action.decode ObjectList.codec listed = .ok list)
    (hend : Stage.afterListing (Candidates.classifyAll list.items) = .finished rep') :
    es = [] ∧ rep.result = rep'.result := by
  have hrest := h.of_listed hlist
  rw [hend] at hrest
  obtain ⟨hes, rfl⟩ := hrest.of_finished
  exact ⟨hes, rfl⟩

/-- the rows of what is loaded: the single object of the list has this class, and this answers the request for it -/
structure Loads (k : Classified) (got : Answer) (result : Except OperatorError Outcome) : Prop where
  absent : got.Absent → result = .ok .noResource
  canonical : k.version = .canonical → (∃ y, Action.decode Canonical.kind.codec got = .ok y) → result = .ok .upToDate
  notEligible : k.version = .legacy → ∀ l, Action.decode Legacy.kind.codec got = .ok l → l.phase ≠ .installed →
    result = .ok .notEligible
  migrated : k.version = .legacy → ∀ l, Action.decode Legacy.kind.codec got = .ok l → l.phase = .installed →
    ∃ z, result = .ok (.migrated z)

theorem Ends.loads_canonical {x : CanonicalResource} {got : Answer}
    (h : Ends c (.loadingCanonical x) (⟨r, got⟩ :: es) rep) : Loads (.canonical x) got rep.result := by
  obtain ⟨-, hrest⟩ := h.of_cons
  rw [Stage.next] at hrest
  dsimp only at hrest
  refine ⟨fun habsent => ?_, fun _ hread => ?_, fun h => (by cases h), fun h => (by cases h)⟩
  · obtain ⟨error, herror, hnotFound⟩ := habsent.exists_decode_eq Canonical.kind.codec
    rw [herror] at hrest
    dsimp only at hrest
    rw [Stage.missed_of_isNotFound hnotFound] at hrest
    obtain ⟨-, rfl⟩ := hrest.of_finished
    rfl
  · obtain ⟨y, hy⟩ := hread
    rw [hy] at hrest
    obtain ⟨-, rfl⟩ := hrest.of_finished
    rfl

theorem Ends.loads_legacy {x : LegacyResource} {got : Answer}
    (h : Ends c (.loadingLegacy x) (⟨r, got⟩ :: es) rep) (hsmooth : Smooth es)
    (hwrite : ∀ l, Action.decode Legacy.kind.codec got = .ok l → l.phase = .installed →
      ∀ r, WritesBack c l r → r.fault? = none) : Loads (.legacy x) got rep.result := by
  obtain ⟨-, hrest⟩ := h.of_cons
  rw [Stage.next] at hrest
  dsimp only at hrest
  refine ⟨fun habsent => ?_, fun h => (by cases h), fun _ l hl hphase => ?_, fun _ l hl hphase => ?_⟩
  · obtain ⟨error, herror, hnotFound⟩ := habsent.exists_decode_eq Legacy.kind.codec
    rw [herror] at hrest
    dsimp only at hrest
    rw [Stage.missed_of_isNotFound hnotFound] at hrest
    obtain ⟨-, rfl⟩ := hrest.of_finished
    rfl
  · rw [hl] at hrest
    dsimp only at hrest
    rw [Stage.afterLoading, if_neg hphase] at hrest
    obtain ⟨-, rfl⟩ := hrest.of_finished
    rfl
  · rw [hl] at hrest
    exact Ends.migrated_of_afterLoading hsmooth (hwrite l hl hphase) hrest hphase

/-- the single object of a list is asked for, under the version that it has, and the answer decides the result -/
theorem Ends.loads {k : Classified} (h : Ends c (.afterListing (.ok [k])) es rep) (hsmooth : Smooth es)
    (hread : Request.fault? ⟨c.namespaceName, .read k.version k.name⟩ = none)
    (hwrite : ∀ got ∈ es, ∀ n l, got.request.call = .read .legacy n → Action.decode Legacy.kind.codec got.answer = .ok l →
      l.phase = .installed → ∀ r, WritesBack c l r → r.fault? = none) :
    ∃ got rest, es = ⟨⟨c.namespaceName, .read k.version k.name⟩, got⟩ :: rest ∧ Loads k got rep.result := by
  cases k with
  | canonical x =>
    have hloading : Ends c (.loadingCanonical x) es rep := h
    obtain ⟨got, rest, rfl, -⟩ := hloading.exists_cons rfl hread
    exact ⟨got, rest, rfl, hloading.loads_canonical⟩
  | legacy x =>
    have hloading : Ends c (.loadingLegacy x) es rep := h
    obtain ⟨got, rest, rfl, -⟩ := hloading.exists_cons rfl hread
    refine ⟨got, rest, rfl, hloading.loads_legacy hsmooth.tail fun l hl => ?_⟩
    exact hwrite _ List.mem_cons_self x.name l rfl hl

/-- **The decision table.** However the cluster answers:
- a write is asked only after the list held one object, which is classified as legacy, and the object of its name was
  loaded and is installed;
- an object that fits no schema is reported, the first one of the list; and when all fit but there are two or more, their
  exact numbers are; in both cases nothing is asked after the list;
- in a conversation without faults the list is answered, there is no resource when it is absent or empty, and otherwise the
  single object is asked for and the rest of the table (`Loads`) is decided by the answer. -/
theorem decision_table (c : Context) {σ : Type} (serve : σ → Request → Answer × σ) (t : σ) :
    let es := (run c).conversation serve t
    let result := ((run c).exec serve t).result.result
    (∀ e ∈ es, e.request.isWrite = true → ∃ l, Sighted c es l) ∧
    (∀ listed rest list, es = ⟨⟨c.namespaceName, .list⟩, listed⟩ :: rest →
      Action.decode ObjectList.codec listed = .ok list →
      (∀ before d after u, list.items = before ++ d :: after → (∀ x ∈ before, ∃ k, classify x = .ok k) →
        classify d = .error u → rest = [] ∧ result = .error (.unrecognized u)) ∧
      ∀ ks, list.items.map classify = ks.map .ok → 2 ≤ ks.length →
        rest = [] ∧ result = .error (.tooMany ⟨count .legacy ks, count .canonical ks⟩)) ∧
    (Buildable c es → Smooth es → ∃ listed rest, es = ⟨⟨c.namespaceName, .list⟩, listed⟩ :: rest ∧
      (listed.Absent → result = .ok .noResource) ∧
      ∀ list, Action.decode ObjectList.codec listed = .ok list →
        (list.items = [] → result = .ok .noResource) ∧
        ∀ d k, list.items = [d] → classify d = .ok k →
          ∃ got rest', rest = ⟨⟨c.namespaceName, .read k.version k.name⟩, got⟩ :: rest' ∧ Loads k got result) := by
  intro es result
  have hends : Ends c .listing es ((run c).exec serve t).result := ends_run serve c t
  refine ⟨fun e he hw => ?_, fun listed rest list hes hlist => ⟨?_, ?_⟩, fun hbuild hsmooth => ?_⟩
  · exact exists_sighted_of_mem (Program.reaches_conversation serve (run c) t) he hw
  · intro before d after u hitems hbefore hd
    rw [hes] at hends
    exact hends.of_finished_listing hlist (by rw [hitems, classifyAll_eq_error hbefore hd, Stage.afterListing])
  · intro ks hks hlength
    rw [hes] at hends
    exact hends.of_finished_listing hlist (by rw [classifyAll_eq_ok hks, Stage.afterListing_eq_tooMany hlength])
  · obtain ⟨listed, rest, hes, hrest⟩ := hends.exists_cons rfl hbuild.list
    rw [hes] at hends hbuild hsmooth
    refine ⟨listed, rest, hes, fun habsent => ?_, fun list hlist => ⟨fun hitems => ?_, fun d k hitems hd => ?_⟩⟩
    · obtain ⟨error, herror, hnotFound⟩ := habsent.exists_decode_eq ObjectList.codec
      rw [Stage.next, herror] at hrest
      dsimp only at hrest
      rw [Stage.missed_of_isNotFound hnotFound] at hrest
      exact congrArg Report.result hrest.of_finished.2
    · exact (hends.of_finished_listing hlist (by rw [hitems]; rfl)).2
    · have hone : Candidates.classifyAll list.items = .ok [k] := by
        rw [hitems, Candidates.classifyAll_singleton, hd]
        rfl
      have hloading := hends.of_listed hlist
      rw [hone] at hloading
      refine hloading.loads hsmooth.tail ?_ fun got hgot => ?_
      · exact hbuild.read _ List.mem_cons_self list d k rfl hlist hitems hd
      · exact hbuild.write got (List.mem_cons_of_mem _ hgot)

/-! ## A run without faults -/

/-- the installation as legacy, and what becomes of it as canonical -/
def shown : Call → Json
  | .list => Cluster.listing "1" [Legacy.kind.write installation]
  | .read .legacy _ => Legacy.kind.write installation
  | _ => Canonical.kind.write (successor installationContext installation)

/-- a cluster that shows them, whatever it is asked -/
def showing (u : Unit) (r : Request) : Answer × Unit := (.ofJson 200 (shown r.call), u)

theorem decode_installation : Legacy.kind.codec.decode (Legacy.kind.write installation) = .ok installation := by
  refine Kind.codec_keeps (Metadata.codec_keeps_identity (some "app") none (some "1"))
    (Legacy.Spec.lawful_codec _) ?_
  rintro s ⟨⟩
  exact ⟨rfl, rfl⟩

theorem exists_decode_successor : ∃ d, Opaque.codec.decode
      (Canonical.kind.write (successor installationContext installation)) = .ok d ∧
    Canonical.kind.codec.decode d.write = .ok (successor installationContext installation) ∧
    Canonical.kind.codec.decode (Canonical.kind.write (successor installationContext installation)) =
      .ok (successor installationContext installation) := by
  have hfaithful : Resource.Faithful (successor installationContext installation) := by
    refine ⟨Metadata.codec_keeps_identity (some "app") (some "syndesis") (some "1"), ?_⟩
    rintro s ⟨⟩
    exact ⟨rfl, rfl⟩
  obtain ⟨d, hd, hread, hsame⟩ := Kind.exists_decode_dress_write (k := Canonical.kind) hfaithful
    (Canonical.Spec.lawful_codec _) fun e he => absurd he List.not_mem_nil
  exact ⟨d, hd, hread, hsame Canonical.kind _ hread⟩

theorem carries_shown (call : Call) : (Answer.ofJson 200 (shown call)).Carries (shown call) :=
  Cluster.carries_ofJson _ rfl

theorem answered_shown (ns : String) (call : Call) : Answered ⟨⟨ns, call⟩, .ofJson 200 (shown call)⟩ := by
  obtain ⟨d, hd, -, hcanonical⟩ := exists_decode_successor
  have hcarries := carries_shown call
  cases call with
  | readSecret name => trivial
  | list =>
    obtain ⟨listed, hlisted, -⟩ := exists_classify_installation
    exact Or.inl ⟨_, (hcarries.decode_ok_iff ObjectList.codec).2 (Json.decode_listing hlisted "1")⟩
  | read v name =>
    cases v with
    | legacy => exact Or.inl ⟨_, (hcarries.decode_ok_iff Legacy.kind.codec).2 decode_installation⟩
    | canonical => exact Or.inl ⟨_, (hcarries.decode_ok_iff Canonical.kind.codec).2 hcanonical⟩
  | create v body => exact ⟨_, (hcarries.decode_ok_iff Canonical.kind.codec).2 hcanonical⟩
  | replace v name body => exact ⟨_, (hcarries.decode_ok_iff Canonical.kind.codec).2 hcanonical⟩
  | patchStatus v name patch => exact ⟨d, (hcarries.decode_ok_iff Opaque.codec).2 hd⟩

section

variable (h : ∀ e ∈ es, e.answer = .ofJson 200 (shown e.request.call))

include h

theorem smooth_showing : Smooth es := by
  refine ⟨fun e he => ?_, fun _ _ e he _ _ _ _ _ _ hcall d hd => ?_⟩
  · obtain ⟨⟨ns, call⟩, a⟩ := e
    have ha : a = .ofJson 200 (shown call) := h _ he
    exact ha ▸ answered_shown ns call
  · obtain ⟨d', hd', hread, -⟩ := exists_decode_successor
    rw [h e he, hcall, (carries_shown _).decode_ok_iff Opaque.codec] at hd
    obtain rfl := Except.ok.inj (hd'.symm.trans hd)
    exact ⟨_, hread⟩

/-- the only name in it is that of the installation -/
theorem buildable_showing : Buildable installationContext es := by
  refine ⟨Request.fault?_of_names ⟨isName_syndesis, fun _ h => by cases h⟩, fun e he list d k hcall hlist hitems hd => ?_,
    fun e he n l hcall hl _ r hback => ?_⟩
  · obtain ⟨listed, hlisted, hclass⟩ := exists_classify_installation
    rw [h e he, hcall, (carries_shown _).decode_ok_iff ObjectList.codec] at hlist
    obtain rfl := Except.ok.inj ((Json.decode_listing hlisted "1").symm.trans hlist)
    obtain rfl := (List.cons.inj hitems).1
    obtain rfl := Except.ok.inj (hclass.symm.trans hd)
    exact Request.fault?_of_names ⟨isName_syndesis, fun n hn => Option.some.inj hn ▸ isName_app⟩
  · rw [h e he, hcall, (carries_shown _).decode_ok_iff Legacy.kind.codec] at hl
    obtain rfl := Except.ok.inj (decode_installation.symm.trans hl)
    refine Request.fault?_of_names ?_
    cases hback with
    | patch revision => exact ⟨isName_syndesis, fun n hn => Option.some.inj hn ▸ isName_app⟩
    | replace revision => exact ⟨isName_syndesis, fun n hn => Option.some.inj hn ▸ isName_app⟩
    | create => exact ⟨isName_syndesis, fun _ h => by cases h⟩

end

theorem decision_table_installation :
    ∃ z, ((run installationContext).exec showing ()).result.result = .ok (.migrated z) := by
  have hshown : ∀ e ∈ (run installationContext).conversation showing (), e.answer = .ofJson 200 (shown e.request.call) := by
    intro e he
    obtain ⟨t, ht⟩ := Program.exists_serve_of_mem_conversation he
    exact ht
  obtain ⟨-, -, htable⟩ := decision_table installationContext showing ()
  obtain ⟨listed, rest, hes, -, hlisted⟩ := htable (buildable_showing hshown) (smooth_showing hshown)
  rw [hes] at hshown
  have hanswer : listed = .ofJson 200 (shown .list) := hshown _ List.mem_cons_self
  obtain ⟨d, hd, hclass⟩ := exists_classify_installation
  have hlist := ((carries_shown .list).decode_ok_iff ObjectList.codec).2 (Json.decode_listing hd "1")
  rw [← hanswer] at hlist
  obtain ⟨got, rest', rfl, hloads⟩ := (hlisted _ hlist).2 d _ rfl hclass
  have hgot : got = .ofJson 200 (shown (.read .legacy "app")) := hshown _ (List.mem_cons_of_mem _ List.mem_cons_self)
  have hread := ((carries_shown (.read .legacy "app")).decode_ok_iff Legacy.kind.codec).2 decode_installation
  exact hloads.migrated rfl _ (hgot ▸ hread) rfl

end MigrationOperator.Pipeline
