/-
One run among others, followed along a trace.

`tracked` is the invariant: a run either has written nothing and returned no migration, or it loaded a legacy object at
some moment, which a `Load` records, and since then it has sent at most its status patch and its replacement
(`Progress`). `Tracked.step` keeps it, one event at a time.
-/
import MigrationOperator.Proofs.Codec.Tidy
import MigrationOperator.Proofs.Pipeline.Stage
import MigrationOperator.Proofs.Store.Trace

namespace MigrationOperator.Pipeline

/-! ## Programs at a stage, taken apart -/

theorem Runs.of_send {c : Context} {s : Stage} {r : Request} {next : Answer → Program (Report Outcome)}
    (h : Runs c s (.send r next)) : s.request? c = some r ∧ ∀ a, Runs c (s.next a) (next a) := by
  cases h with
  | sends hr _ hnext => exact ⟨hr, hnext⟩

/-- a program at a stage sends the request of the stage, provided that it can be sent -/
theorem Runs.exists_send_of_fault? {c : Context} {s : Stage} {r : Request} {p : Program (Report Outcome)}
    (h : Runs c s p) (hr : s.request? c = some r) (hf : r.fault? = none) :
    ∃ next, p = .send r next ∧ ∀ a, Runs c (s.next a) (next a) := by
  cases h with
  | finished => exact absurd hr nofun
  | blocked hr' hf' =>
    obtain rfl := Option.some.inj (hr.symm.trans hr')
    exact absurd (hf.symm.trans hf') nofun
  | sends hr' _ hnext =>
    obtain rfl := Option.some.inj (hr.symm.trans hr')
    exact ⟨_, rfl, hnext⟩

theorem Runs.eq_done {c : Context} {rep : Report Outcome} {p : Program (Report Outcome)}
    (h : Runs c (.finished rep) p) : p = .done rep := by
  cases h with
  | finished => rfl
  | blocked hr _ => exact absurd hr nofun
  | sends hr _ _ => exact absurd hr nofun

/-- a run that is over reported what its stage says, or could not send the request of its stage -/
theorem Runs.done_cases {c : Context} {s : Stage} {rep : Report Outcome} (h : Runs c s (.done rep)) :
    s = .finished rep ∨ ∃ r fault, s.request? c = some r ∧ r.fault? = some fault ∧
      rep.result = .error (.unsendable fault) := by
  cases h with
  | finished => exact Or.inl rfl
  | blocked hr hf => exact Or.inr ⟨_, _, hr, hf, rfl⟩

theorem Runs.of_done {c : Context} {s : Stage} {rep : Report Outcome} (h : Runs c s (.done rep)) :
    s = .finished rep ∨ ∃ e, rep.result = .error e :=
  h.done_cases.imp_right fun ⟨_, _, _, _, he⟩ => ⟨_, he⟩

/-! ## Requests of a run that loaded a legacy object -/

/-- the status patch of a loaded object, pinned to the revision it was loaded at -/
def patchRequest (c : Context) (l : LegacyResource) : Request :=
  ⟨c.namespaceName, .patchStatus .canonical (successor c l).name
    (Writing.statusPatch l.metadata.resourceVersion (Migration.status l.status none))⟩

/-- the body of the replacement of a loaded object, pinned to a revision -/
def replacement (c : Context) (l : LegacyResource) (revision : Option String) : Json :=
  Canonical.kind.write ((successor c l).atRevision revision)

def replaceRequest (c : Context) (l : LegacyResource) (revision : Option String) : Request :=
  ⟨c.namespaceName, .replace .canonical (successor c l).name (replacement c l revision)⟩

theorem successor_name {c : Context} {l : LegacyResource} {name : String} (h : l.metadata.name = some name) :
    (successor c l).name = name := by
  show ((some (l.metadata.name.getD Canonical.defaultName) : Option String).or none).getD "" = name
  rw [h]
  rfl

/-- the revision that a status patch carries -/
theorem revisionOf_statusPatch (revision : Option String) (status : Status) :
    Cluster.revisionOf (Writing.statusPatch revision status) = revision := by
  have hmetadata : (Writing.statusPatch revision status).get? "metadata" =
      some (.object [("resourceVersion", .ofOption (revision.map .str))]) :=
    (Entries.find?_ofList _ _).trans (by simp [Entries.under_cons])
  rw [Cluster.revisionOf, Json.at?_pair hmetadata, Entries.find?_ofList]
  cases revision <;> simp [Entries.under_cons, Json.ofOption, Json.asString?]

theorem get?_status_statusPatch (revision : Option String) (status : Status) :
    (Writing.statusPatch revision status).get? "status" = some (Status.codec.write status) :=
  (Entries.find?_ofList _ _).trans (by simp [Entries.under_cons])

theorem normal_statusPatch (revision : Option String) (status : Status) :
    (Writing.statusPatch revision status).Normal := by
  have hrevision : (Json.ofOption (revision.map .str)).Normal := by cases revision <;> exact trivial
  refine Json.normal_object fun m hm => ?_
  simp only [List.mem_cons, List.not_mem_nil, or_false] at hm
  rcases hm with rfl | rfl
  · exact Json.normal_object fun m hm => List.mem_singleton.1 hm ▸ hrevision
  · exact Codec.Tidy.normal_write (c := Status.codec) status

/-- the name and the revision that a replacement carries -/
theorem stands_replacement (c : Context) (l : LegacyResource) (revision : Option String) :
    (replacement c l revision).Stands (successor c l).name revision := by
  have hkeeps := Metadata.codec_keeps_identity (some (l.metadata.name.getD Canonical.defaultName))
    (some c.namespaceName) revision
  have hshows := Canonical.kind.shows_write ((successor c l).atRevision revision)
  refine ⟨Canonical.kind.normal_write (Metadata.normal_write_identity _ _ _), _, _, ?_, hkeeps, rfl, rfl⟩
  · rw [replacement, Json.get?, Entries.find?_eq_head?, hshows.metadata]
    rfl

/-- what is put in place of an object reads its metadata again -/
theorem rereads_replacement (c : Context) (l : LegacyResource) (revision : Option String) :
    (replacement c l revision).Rereads := by
  intro md m hmd hm
  have hshows := (Canonical.kind.shows_write ((successor c l).atRevision revision)).metadata
  rw [replacement, Json.get?, Entries.find?_eq_head?, hshows] at hmd
  obtain rfl := Option.some.inj hmd
  have hkeeps := Metadata.codec_keeps_identity (some (l.metadata.name.getD Canonical.defaultName))
    (some c.namespaceName) revision
  obtain rfl := Except.ok.inj (Eq.trans hkeeps.symm hm)
  exact ⟨_, hkeeps⟩

theorem get?_spec_replacement (c : Context) (l : LegacyResource) (revision : Option String) :
    (replacement c l revision).get? "spec" = some (Canonical.Spec.codec.write (successor c l).spec) := by
  rw [replacement, Json.get?, Entries.find?_eq_head?, (Canonical.kind.shows_write _).spec]
  rfl

/-! ## What a run did -/

/-- the run sent nothing -/
def Rests (i : Nat) (es : List Event) : Prop := ∀ e ∈ es, ¬ e.IsOf i

/-- the run sent no write -/
def Quiet (i : Nat) (es : List Event) : Prop := ∀ r a w, .sent i r a w ∈ es → r.isWrite = false

theorem Rests.append {i : Nat} {es fs : List Event} (h : Rests i es) (h' : Rests i fs) : Rests i (es ++ fs) :=
  fun e he => (List.mem_append.1 he).elim (h e) (h' e)

theorem Rests.singleton {i : Nat} {e : Event} (h : ¬ e.IsOf i) : Rests i [e] :=
  fun _ he => List.mem_singleton.1 he ▸ h

theorem Quiet.append {i : Nat} {es fs : List Event} (h : Quiet i es) (h' : Quiet i fs) : Quiet i (es ++ fs) :=
  fun r a w he => (List.mem_append.1 he).elim (h r a w) (h' r a w)

theorem Rests.quiet {i : Nat} {es : List Event} (h : Rests i es) : Quiet i es :=
  fun _ _ _ he => absurd rfl (h _ he)

/-- a legacy object that a run loaded -/
structure Load where
  legacy : LegacyResource
  name : String
  /-- what was stored -/
  doc : Json
  /-- the events before it was loaded, the answer, and the events since -/
  before : List Event
  answer : Answer
  since : List Event

namespace Load

/-- the request that loaded the object -/
def event (L : Load) (c : Context) (i : Nat) : Event :=
  .sent i ⟨c.namespaceName, .read .legacy L.name⟩ L.answer none

def events (L : Load) (c : Context) (i : Nat) : List Event := L.before ++ L.event c i :: L.since

/-- the object was loaded as it was stored, by a run that had written nothing -/
structure Holds (L : Load) (ns : String) (c : Context) (i : Nat) (W₀ W : World) : Prop where
  trace : ∃ W₁ W₂, Trace ns W₀ L.before W₁ ∧ W₁.objects.get? L.name = some L.doc ∧ Step ns W₁ (L.event c i) W₂ ∧
    W₂.objects = W₁.objects ∧ Trace ns W₂ L.since W
  stands : ∃ revision, L.doc.Stands L.name (some revision)
  reads : Legacy.kind.codec.decode L.doc = .ok L.legacy
  answered : Action.decode Legacy.kind.codec L.answer = .ok L.legacy
  eligible : L.legacy.phase = .installed
  quiet : Quiet i L.before

theorem Holds.identity {L : Load} {ns : String} {c : Context} {i : Nat} {W₀ W : World} (h : L.Holds ns c i W₀ W) :
    ∃ revision, L.doc.Stands L.name (some revision) ∧ L.legacy.metadata.resourceVersion = some revision ∧
      (successor c L.legacy).name = L.name := by
  obtain ⟨revision, hstands⟩ := h.stands
  obtain ⟨hname, hrevision⟩ := hstands.identity_of_decode h.reads
  exact ⟨revision, hstands, hrevision, successor_name hname⟩

end Load

/-- what a run did since it loaded a legacy object, and the stage it is at -/
inductive Progress (c : Context) (i : Nat) (l : LegacyResource) : List Event → Stage → Prop where
  | loaded {es : List Event} (h : Rests i es) : Progress c i l es (.patching l)
  | patched {s₁ s₂ : List Event} {a : Answer} {w : Write} (h₁ : Rests i s₁) (h₂ : Rests i s₂) :
    Progress c i l (s₁ ++ .sent i (patchRequest c l) a (some w) :: s₂) (.replacing l (some w.revision))
  /-- the status patch failed, or its answer did not come back -/
  | unpatched {s₁ s₂ : List Event} {a : Answer} {w : Option Write} {rep : Report Outcome} {e : OperatorError}
    (h₁ : Rests i s₁) (h₂ : Rests i s₂) (hrep : rep.result = .error e) :
    Progress c i l (s₁ ++ .sent i (patchRequest c l) a w :: s₂) (.finished rep)
  /-- the replacement was sent; when it was not accepted, the run failed -/
  | replaced {s₁ s₂ s₃ : List Event} {a b : Answer} {w : Write} {w' : Option Write} {rep : Report Outcome}
    (h₁ : Rests i s₁) (h₂ : Rests i s₂) (h₃ : Rests i s₃) (hrep : w' = none → ∃ e, rep.result = .error e) :
    Progress c i l (s₁ ++ .sent i (patchRequest c l) a (some w) ::
      (s₂ ++ .sent i (replaceRequest c l (some w.revision)) b w' :: s₃)) (.finished rep)

/-- a run that loaded an object, somewhere on its way since then -/
structure Load.At (L : Load) (ns : String) (c : Context) (i : Nat) (W₀ W : World) : Prop where
  holds : L.Holds ns c i W₀ W
  progress : ∃ s, Runs c s (W.runs i) ∧ Progress c i L.legacy L.since s

/-- a stage at which nothing was written, and no migration is reported -/
def Stage.IsPreliminary : Stage → Prop
  | .listing | .loadingLegacy _ | .loadingCanonical _ => True
  | .finished rep => ∀ x, rep.result ≠ .ok (.migrated x)
  | .patching _ | .replacing _ _ | .creating _ | .describing _ _ => False

theorem Stage.IsPreliminary.isWrite {c : Context} {s : Stage} {r : Request} (h : s.IsPreliminary)
    (hr : s.request? c = some r) : r.isWrite = false := by
  cases s with
  | listing => exact Option.some.inj hr ▸ rfl
  | loadingLegacy x => exact Option.some.inj hr ▸ rfl
  | loadingCanonical x => exact Option.some.inj hr ▸ rfl
  | finished rep => exact absurd hr nofun
  | _ => exact absurd h id

/-- where a run is in the middle of a trace -/
inductive Tracked (ns : String) (c : Context) (i : Nat) (W₀ : World) : List Event → World → Prop where
  | preliminary {es : List Event} {W : World} {s : Stage} (hruns : Runs c s (W.runs i)) (hs : s.IsPreliminary)
    (hquiet : Quiet i es) : Tracked ns c i W₀ es W
  | loaded {W : World} (L : Load) (h : L.At ns c i W₀ W) : Tracked ns c i W₀ (L.events c i) W

/-! ## The invariant -/

section

variable {ns : String} {c : Context} {i : Nat} {W₀ W W' : World} {es : List Event} {e : Event}

/-- an event of somebody else leaves the run where it is -/
theorem Progress.rest {l : LegacyResource} {s : Stage} (h : Progress c i l es s) (he : ¬ e.IsOf i) :
    Progress c i l (es ++ [e]) s := by
  have hrest := Rests.singleton he
  cases h with
  | loaded h => exact .loaded (h.append hrest)
  | patched h₁ h₂ =>
    rw [List.append_assoc, List.cons_append]
    exact .patched h₁ (h₂.append hrest)
  | unpatched h₁ h₂ hrep =>
    rw [List.append_assoc, List.cons_append]
    exact .unpatched h₁ (h₂.append hrest) hrep
  | replaced h₁ h₂ h₃ hrep =>
    rw [List.append_assoc, List.cons_append, List.append_assoc, List.cons_append]
    exact .replaced h₁ h₂ (h₃.append hrest) hrep

/-- the load with one more event since -/
def Load.extend (L : Load) (e : Event) : Load := { L with since := L.since ++ [e] }

theorem Load.events_extend (L : Load) (e : Event) : (L.extend e).events c i = L.events c i ++ [e] := by
  simp [Load.events, Load.extend, Load.event]

theorem Load.Holds.extend {L : Load} (h : L.Holds ns c i W₀ W) (hs : Step ns W e W') :
    (L.extend e).Holds ns c i W₀ W' := by
  obtain ⟨W₁, W₂, h₁, hdoc, hget, hsame, h₂⟩ := h.trace
  exact { h with trace := ⟨W₁, W₂, h₁, hdoc, hget, hsame, .step h₂ hs⟩ }

/-- a run that was about to patch: what the answer makes of it -/
theorem Progress.patch {l : LegacyResource} {a : Answer} {w : Option Write} (h : Rests i es)
    (hs : Step ns W (.sent i (patchRequest c l) a w) W') :
    Progress c i l (es ++ [.sent i (patchRequest c l) a w]) ((Stage.patching l).next a) := by
  have hnone : Rests i ([] : List Event) := fun _ he => absurd he List.not_mem_nil
  rw [Stage.next]
  cases hd : Action.decode Opaque.codec a with
  | error e => exact .unpatched h hnone rfl
  | ok patched =>
    obtain ⟨next, -, -, hserved⟩ := hs.sent_cases
    rcases hserved with hfailed | hserved
    · exact absurd hd (hfailed.decode_ne_ok _ _)
    · rcases hserved.patch_cases with ⟨doc, doc', revision, rfl, -, hpatched, ha⟩ | ⟨-, -, hfailed, -⟩
      · -- the answer carries the revision that the write left the object at
        have hread := (ha.decode_ok_iff Opaque.codec).1 hd
        have hrevision := (hpatched.stands.label _).revision_eq_of_decode hread
        dsimp only
        rw [hrevision]
        exact .patched (w := ⟨_, revision⟩) h hnone
      · exact absurd hd (hfailed.decode_ne_ok _ _)

/-- a run that was about to replace: it ends, with an error unless the replacement was accepted -/
theorem Progress.replace {l : LegacyResource} {s₁ s₂ : List Event} {a b : Answer} {w : Write} {w' : Option Write}
    (h₁ : Rests i s₁) (h₂ : Rests i s₂)
    (hs : Step ns W (.sent i (replaceRequest c l (some w.revision)) b w') W') :
    Progress c i l (s₁ ++ .sent i (patchRequest c l) a (some w) :: s₂ ++
      [.sent i (replaceRequest c l (some w.revision)) b w']) ((Stage.replacing l (some w.revision)).next b) := by
  have hnone : Rests i ([] : List Event) := fun _ he => absurd he List.not_mem_nil
  rw [Stage.next, List.append_assoc, List.cons_append]
  cases hd : Action.decode Canonical.kind.codec b with
  | error e => exact .replaced h₁ h₂ hnone fun _ => ⟨e, rfl⟩
  | ok x =>
    refine .replaced h₁ h₂ hnone fun hw => ?_
    obtain ⟨next, -, -, hserved⟩ := hs.sent_cases
    have hfailed : b.Failed := by
      rcases hserved with hfailed | hserved
      · exact hfailed
      · rcases hserved.replace_cases with ⟨_, _, _, hw', -⟩ | ⟨-, -, hfailed, -⟩
        · cases hw.symm.trans hw'
        · exact hfailed
    exact absurd hd (hfailed.decode_ne_ok _ _)

theorem Stage.isPreliminary_error (census : Option Census) (e : OperatorError) :
    (Stage.finished ⟨census, .error e⟩).IsPreliminary :=
  fun _ h => by cases h

theorem Stage.isPreliminary_missed (s : Stage) (census : Census) (e : OperatorError) :
    (s.missed census e).IsPreliminary := by
  rw [Stage.missed]
  split
  · exact fun _ h => by cases h
  · exact isPreliminary_error _ e

theorem Stage.isPreliminary_afterListing (r : Except Unrecognized (List Classified)) :
    (Stage.afterListing r).IsPreliminary := by
  match r with
  | .error e => exact isPreliminary_error _ _
  | .ok [] => exact fun _ h => by cases h
  | .ok [.legacy x] => exact trivial
  | .ok [.canonical x] => exact trivial
  | .ok (.legacy _ :: _ :: _) => exact isPreliminary_error _ _
  | .ok (.canonical _ :: _ :: _) => exact isPreliminary_error _ _

theorem Stage.isPreliminary_next_listing (a : Answer) : (Stage.listing.next a).IsPreliminary := by
  rw [Stage.next]
  cases Action.decode ObjectList.codec a with
  | ok l => exact isPreliminary_afterListing _
  | error e => exact isPreliminary_missed _ _ e

theorem Stage.isPreliminary_next_loadingCanonical (x : CanonicalResource) (a : Answer) :
    ((Stage.loadingCanonical x).next a).IsPreliminary := by
  rw [Stage.next]
  cases Action.decode Canonical.kind.codec a with
  | ok y => exact fun _ h => by cases h
  | error e => exact isPreliminary_missed _ _ e

/-- whoever loaded an object stays on its way, whatever happens -/
theorem Load.At.step {L : Load} (h : L.At ns c i W₀ W) (hs : Step ns W e W') : (L.extend e).At ns c i W₀ W' := by
  obtain ⟨hL, s, hruns, hprogress⟩ := h
  refine ⟨hL.extend hs, ?_⟩
  by_cases he : e.IsOf i
  · cases e with
    | foreign _ _ => exact absurd he id
    | sent j r a w =>
      obtain rfl : j = i := he
      obtain ⟨next, hi, hi', -⟩ := hs.sent_cases
      rw [hi] at hruns
      obtain ⟨hr, hnext⟩ := hruns.of_send
      refine ⟨s.next a, hi' ▸ hnext a, ?_⟩
      generalize hsince : L.since = since at hprogress
      simp only [Load.extend, hsince]
      cases hprogress with
      | loaded hrest =>
        obtain rfl := Option.some.inj hr
        exact .patch hrest hs
      | patched h₁ h₂ =>
        obtain rfl := Option.some.inj hr
        exact .replace h₁ h₂ hs
      | unpatched _ _ _ => exact absurd hr nofun
      | replaced _ _ _ _ => exact absurd hr nofun
  · exact ⟨s, hs.runs_eq he ▸ hruns, hprogress.rest he⟩

theorem Load.At.trace {L : Load} (h : L.At ns c i W₀ W) (ht : Trace ns W es W') :
    Load.At { L with since := L.since ++ es } ns c i W₀ W' := by
  induction ht with
  | start => simpa using h
  | step _ hs ih => simpa [Load.extend] using ih.step hs

/-- an answer that decodes as an eligible legacy object is a load of what is stored -/
theorem load_of_decode {name : String} {l : LegacyResource} {a : Answer} {w : Option Write} (ht : Trace ns W₀ es W)
    (hstored : Stored W.objects) (hquiet : Quiet i es)
    (hs : Step ns W (.sent i ⟨c.namespaceName, .read .legacy name⟩ a w) W')
    (hd : Action.decode Legacy.kind.codec a = .ok l) (hp : l.phase = .installed) :
    w = none ∧ (Stage.afterLoading l) = .patching l ∧ ∃ doc, Load.Holds ⟨l, name, doc, es, a, []⟩ ns c i W₀ W' := by
  obtain ⟨rfl, hsame, doc, revision, hdoc, hstands, hread⟩ := hs.exists_of_decode_read hstored hd
  have hstage := Stage.afterLoading_eq_patching hp (hstands.identity_of_decode hread).2
  exact ⟨rfl, hstage, doc, ⟨W, W', ht, hdoc, hs, hsame, .start⟩, ⟨revision, hstands⟩, hread, hd, hp, hquiet⟩

/-- a run that was about to load a legacy object: it did, and goes on to patch it, or it is over -/
theorem exists_load {x : LegacyResource} {a : Answer} {w : Option Write} (ht : Trace ns W₀ es W)
    (hstored : Stored W.objects) (hquiet : Quiet i es)
    (hs : Step ns W (.sent i ⟨c.namespaceName, .read .legacy x.name⟩ a w) W')
    (hruns : Runs c ((Stage.loadingLegacy x).next a) (W'.runs i)) :
    ((Stage.loadingLegacy x).next a).IsPreliminary ∨
      ∃ L : Load, L.At ns c i W₀ W' ∧
        es ++ [.sent i ⟨c.namespaceName, .read .legacy x.name⟩ a w] = L.events c i := by
  rw [Stage.next] at hruns ⊢
  cases hd : Action.decode Legacy.kind.codec a with
  | error e => exact Or.inl (Stage.isPreliminary_missed _ _ e)
  | ok l =>
    rw [hd] at hruns
    dsimp only at hruns ⊢
    by_cases hp : l.phase = .installed
    · obtain ⟨rfl, hstage, doc, hL⟩ := load_of_decode ht hstored hquiet hs hd hp
      rw [hstage] at hruns
      exact Or.inr ⟨_, ⟨hL, _, hruns, .loaded fun _ he => absurd he List.not_mem_nil⟩, rfl⟩
    · rw [Stage.afterLoading, if_neg hp]
      exact Or.inl fun _ h => by cases h

theorem Tracked.step (ht : Trace ns W₀ es W) (hstored : Stored W₀.objects) (h : Tracked ns c i W₀ es W)
    (hs : Step ns W e W') : Tracked ns c i W₀ (es ++ [e]) W' := by
  cases h with
  | loaded L h => exact L.events_extend e ▸ .loaded (L.extend e) (h.step hs)
  | @preliminary _ _ s hruns hprelim hquiet =>
    by_cases he : e.IsOf i
    · cases e with
      | foreign _ _ => exact absurd he id
      | sent j r a w =>
        obtain rfl : j = i := he
        obtain ⟨next, hi, hi', -⟩ := hs.sent_cases
        rw [hi] at hruns
        obtain ⟨hr, hnext⟩ := hruns.of_send
        have hnext := hi' ▸ hnext a
        have hread : r.isWrite = false → Quiet j (es ++ [.sent j r a w]) := by
          intro hw
          refine hquiet.append fun r' a' w' he' => ?_
          obtain ⟨-, rfl, -, -⟩ := Event.sent.inj (List.mem_singleton.1 he')
          exact hw
        cases s with
        | listing =>
          obtain rfl := Option.some.inj hr
          exact .preliminary hnext (Stage.isPreliminary_next_listing a) (hread rfl)
        | loadingCanonical x =>
          obtain rfl := Option.some.inj hr
          exact .preliminary hnext (Stage.isPreliminary_next_loadingCanonical x a) (hread rfl)
        | loadingLegacy x =>
          obtain rfl := Option.some.inj hr
          rcases exists_load ht (ht.stored hstored) hquiet hs hnext with hprelim | ⟨L, hL, hes⟩
          · exact .preliminary hnext hprelim (hread rfl)
          · exact hes ▸ .loaded L hL
        | finished rep => exact absurd hr nofun
        | _ => exact absurd hprelim id
    · exact .preliminary (hs.runs_eq he ▸ hruns) hprelim (hquiet.append (Rests.singleton he).quiet)

/-- a run that starts with a trace is tracked along it -/
theorem tracked (hstored : Stored W₀.objects) (hrun : W₀.runs i = run c) (ht : Trace ns W₀ es W) :
    Tracked ns c i W₀ es W := by
  induction ht with
  | start => exact .preliminary (s := .listing) (hrun ▸ runs_run c) trivial fun _ _ _ he => absurd he List.not_mem_nil
  | step ht hs ih => exact ih.step ht hstored hs

end

end MigrationOperator.Pipeline
