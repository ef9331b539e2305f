/-
Stages along a conversation.

A run that has had some answers is at the stage that they lead to (`Runs.of_reaches`), whatever they are. `leads_next` says
where one answer can lead, and by induction on the conversation `exists_sighted` says what a run has seen by the time it
writes: it listed exactly one object, which was classified as legacy, and then loaded an installed legacy object, which is
the one that it writes back.
-/
import MigrationOperator.Proofs.Api.Conversation
import MigrationOperator.Proofs.Pipeline.Tracking

namespace MigrationOperator.Pipeline

variable {c : Context} {s : Stage} {a : Answer} {es : List Exchange} {l : LegacyResource} {r : Request}

/-! ## Stages along a conversation -/

namespace Stage

/-- the stage after a conversation -/
def after (s : Stage) (es : List Exchange) : Stage := es.foldl (fun s e => s.next e.answer) s

@[simp] theorem after_nil (s : Stage) : s.after [] = s := rfl

@[simp] theorem after_cons (s : Stage) (e : Exchange) (es : List Exchange) :
    s.after (e :: es) = (s.next e.answer).after es := rfl

@[simp] theorem after_concat (s : Stage) (es : List Exchange) (e : Exchange) :
    s.after (es ++ [e]) = (s.after es).next e.answer := by
  simp [after, List.foldl_append]

/-- every request is the one of its stage -/
def Asks (c : Context) : Stage → List Exchange → Prop
  | _, [] => True
  | s, e :: es => s.request? c = some e.request ∧ Asks c (s.next e.answer) es

theorem asks_append_iff {fs : List Exchange} : s.Asks c (es ++ fs) ↔ s.Asks c es ∧ (s.after es).Asks c fs := by
  induction es generalizing s with
  | nil => simp [Asks]
  | cons e es ih => simp [Asks, ih, and_assoc]

/-- the loaded object that a stage is about to write back -/
def source? : Stage → Option LegacyResource
  | .patching l | .replacing l _ | .creating l | .describing l _ => some l
  | .listing | .loadingLegacy _ | .loadingCanonical _ | .finished _ => none

end Stage

/-- a program at a stage stands at the stage after the conversation, and asked what the stages ask for -/
theorem Runs.of_reaches {p q : Program (Report Outcome)} (h : Runs c s p) (hreach : p.Reaches es q) :
    s.Asks c es ∧ Runs c (s.after es) q := by
  induction hreach generalizing s with
  | start p => exact ⟨trivial, h⟩
  | @ask r next a es q _ ih =>
    obtain ⟨hr, hnext⟩ := h.of_send
    obtain ⟨hasks, hruns⟩ := ih (hnext a)
    exact ⟨⟨hr, hasks⟩, hruns⟩

/-! ## What one answer leads to -/

/-- a list is classified object by object -/
theorem classifyAll_cons_eq_ok_iff {d : Opaque} {ds : List Opaque} {ks : List Classified} :
    Candidates.classifyAll (d :: ds) = .ok ks ↔
      ∃ k ks', classify d = .ok k ∧ Candidates.classifyAll ds = .ok ks' ∧ ks = k :: ks' := by
  rw [Candidates.classifyAll]
  cases hd : classify d with
  | error e => simp [bind, Except.bind]
  | ok k =>
    cases hds : Candidates.classifyAll ds with
    | error e => simp [bind, Except.bind]
    | ok ks' => simp [bind, Except.bind, pure, Except.pure, eq_comm]

/-- the first object that fits no schema is reported -/
theorem classifyAll_eq_error {before after : List Opaque} {d : Opaque} {u : Unrecognized}
    (hbefore : ∀ x ∈ before, ∃ k, classify x = .ok k) (hd : classify d = .error u) :
    Candidates.classifyAll (before ++ d :: after) = .error u := by
  induction before with
  | nil => simp [Candidates.classifyAll, hd, bind, Except.bind]
  | cons x before ih =>
    obtain ⟨k, hk⟩ := hbefore x List.mem_cons_self
    have hrest := ih fun y hy => hbefore y (List.mem_cons_of_mem x hy)
    simp [Candidates.classifyAll, hk, hrest, bind, Except.bind]

theorem classifyAll_eq_ok {ds : List Opaque} {ks : List Classified} (h : ds.map classify = ks.map .ok) :
    Candidates.classifyAll ds = .ok ks := by
  induction ds generalizing ks with
  | nil =>
    obtain rfl : ks = [] := List.map_eq_nil_iff.1 h.symm
    rfl
  | cons d ds ih =>
    cases ks with
    | nil => cases h
    | cons k ks =>
      obtain ⟨hd, hds⟩ := List.cons.inj h
      exact classifyAll_cons_eq_ok_iff.2 ⟨k, ks, hd, ih hds, rfl⟩

theorem exists_of_classifyAll_eq_singleton {ds : List Opaque} {k : Classified}
    (h : Candidates.classifyAll ds = .ok [k]) : ∃ d, ds = [d] ∧ classify d = .ok k := by
  cases ds with
  | nil => exact absurd h nofun
  | cons d ds =>
    obtain ⟨k', ks, hd, hds, heq⟩ := classifyAll_cons_eq_ok_iff.1 h
    obtain ⟨rfl, rfl⟩ := List.cons.inj heq
    cases ds with
    | nil => exact ⟨d, rfl, hd⟩
    | cons d' ds =>
      obtain ⟨_, _, -, -, hnil⟩ := classifyAll_cons_eq_ok_iff.1 hds
      exact absurd hnil nofun

/-- the answer lists one object, and that is classified as this legacy one -/
def Lists (a : Answer) (x : LegacyResource) : Prop :=
  ∃ list d, Action.decode ObjectList.codec a = .ok list ∧ list.items = [d] ∧ classify d = .ok (.legacy x)

namespace Stage

/-- a failure ends the run, whatever it says -/
theorem exists_missed_eq (s : Stage) (census : Census) (e : OperatorError) :
    ∃ rep, s.missed census e = .finished rep := by
  rw [missed]
  split
  · exact ⟨_, rfl⟩
  · exact ⟨_, rfl⟩

theorem exists_afterLoading_eq (l : LegacyResource) :
    (l.phase = .installed ∧ (afterLoading l = .creating l ∨ afterLoading l = .patching l)) ∨
      ∃ rep, afterLoading l = .finished rep := by
  rw [afterLoading]
  split
  · rename_i hphase
    refine Or.inl ⟨hphase, ?_⟩
    split
    · exact Or.inl rfl
    · exact Or.inr rfl
  · exact Or.inr ⟨_, rfl⟩

/-- what was classified leads to an object only when it is a single one -/
theorem exists_afterListing_eq (result : Except Unrecognized (List Classified)) :
    (∃ x, result = .ok [.legacy x] ∧ afterListing result = .loadingLegacy x) ∨
      (∃ x, result = .ok [.canonical x] ∧ afterListing result = .loadingCanonical x) ∨
        ∃ rep, afterListing result = .finished rep := by
  rcases result with e | ks
  · exact Or.inr (Or.inr ⟨_, rfl⟩)
  · rcases ks with _ | ⟨k, _ | ⟨k', ks⟩⟩
    · exact Or.inr (Or.inr ⟨_, rfl⟩)
    · cases k with
      | legacy x => exact Or.inl ⟨x, rfl, rfl⟩
      | canonical x => exact Or.inr (Or.inl ⟨x, rfl, rfl⟩)
    · cases k with
      | legacy x => exact Or.inr (Or.inr ⟨_, rfl⟩)
      | canonical x => exact Or.inr (Or.inr ⟨_, rfl⟩)

/-- one answer leads from the listing to an object that was listed alone, from there to writing it back when it is
installed, and from a write to the next one or to the end -/
inductive Leads (a : Answer) : Stage → Stage → Prop where
  | found {x : LegacyResource} (h : Lists a x) : Leads a .listing (.loadingLegacy x)
  | current (x : CanonicalResource) : Leads a .listing (.loadingCanonical x)
  | loaded {x l : LegacyResource} {s : Stage} (h : Action.decode Legacy.kind.codec a = .ok l)
    (hphase : l.phase = .installed) (hs : s.source? = some l) : Leads a (.loadingLegacy x) s
  | wrote {s s' : Stage} {l : LegacyResource} (hs : s.source? = some l) (hs' : s'.source? = some l) : Leads a s s'
  | ended (s : Stage) (rep : Report Outcome) : Leads a s (.finished rep)

theorem leads_missed (s : Stage) (census : Census) (e : OperatorError) : Leads a s (s.missed census e) := by
  obtain ⟨rep, hrep⟩ := s.exists_missed_eq census e
  rw [hrep]
  exact .ended s rep

theorem leads_listing (a : Answer) : Leads a .listing (Stage.listing.next a) := by
  rw [next]
  cases hlist : Action.decode ObjectList.codec a with
  | error e => exact leads_missed _ _ e
  | ok list =>
    dsimp only
    rcases exists_afterListing_eq (Candidates.classifyAll list.items) with ⟨x, hone, hx⟩ | ⟨x, -, hx⟩ | ⟨rep, hrep⟩
    · rw [hx]
      obtain ⟨d, hitems, hd⟩ := exists_of_classifyAll_eq_singleton hone
      exact .found ⟨list, d, hlist, hitems, hd⟩
    · rw [hx]
      exact .current x
    · rw [hrep]
      exact .ended _ rep

theorem leads_loadingLegacy (a : Answer) (x : LegacyResource) :
    Leads a (.loadingLegacy x) ((Stage.loadingLegacy x).next a) := by
  rw [next]
  cases hl : Action.decode Legacy.kind.codec a with
  | error e => exact leads_missed _ _ e
  | ok l =>
    dsimp only
    rcases exists_afterLoading_eq l with ⟨hphase, hs | hs⟩ | ⟨rep, hrep⟩
    · exact .loaded hl hphase (hs ▸ rfl)
    · exact .loaded hl hphase (hs ▸ rfl)
    · rw [hrep]
      exact .ended _ rep

/-- every answer leads to a next stage in one of these ways -/
theorem leads_next (s : Stage) (a : Answer) : Leads a s (s.next a) := by
  cases s with
  | listing => exact leads_listing a
  | loadingLegacy x => exact leads_loadingLegacy a x
  | loadingCanonical x =>
    rw [next]
    cases Action.decode Canonical.kind.codec a with
    | ok y => exact .ended _ _
    | error e => exact leads_missed _ _ e
  | patching l =>
    rw [next]
    cases Action.decode Opaque.codec a with
    | ok patched => exact .wrote rfl rfl
    | error e => exact .ended _ _
  | replacing l revision =>
    rw [next]
    cases Action.decode Canonical.kind.codec a with
    | ok y => exact .ended _ _
    | error e => exact .ended _ _
  | creating l =>
    rw [next]
    cases Action.decode Canonical.kind.codec a with
    | ok created => exact .wrote rfl rfl
    | error e => exact .ended _ _
  | describing l created =>
    rw [next]
    cases Action.decode Opaque.codec a with
    | error e => exact .ended _ _
    | ok patched =>
      dsimp only
      cases Canonical.kind.codec.decode patched.write with
      | ok y => exact .ended _ _
      | error e => exact .ended _ _
  | finished rep => exact .ended _ rep

end Stage

/-! ## What a run has seen when it writes -/

/-- the conversation listed one legacy object and loaded this installed one -/
structure Sighted (c : Context) (es : List Exchange) (l : LegacyResource) : Prop where
  conversation : ∃ x listed loaded rest, es = ⟨⟨c.namespaceName, .list⟩, listed⟩ ::
    ⟨⟨c.namespaceName, .read .legacy x.name⟩, loaded⟩ :: rest ∧ Lists listed x ∧
      Action.decode Legacy.kind.codec loaded = .ok l ∧ l.phase = .installed

/-- what a stage has seen: the run begins with the listing, an object that is about to be loaded was listed, and one that is
about to be written back was listed and loaded -/
def Stage.Saw (c : Context) (es : List Exchange) : Stage → Prop
  | .listing => es = []
  | .loadingLegacy x => ∃ listed, es = [⟨⟨c.namespaceName, .list⟩, listed⟩] ∧ Lists listed x
  | .patching l | .replacing l _ | .creating l | .describing l _ => Sighted c es l
  | .loadingCanonical _ | .finished _ => True

theorem Stage.saw_of_source? (hs : s.source? = some l) : s.Saw c es ↔ Sighted c es l := by
  cases s <;> simp_all [source?, Saw]

/-- one more exchange leads to a stage that has seen what it says -/
theorem Stage.Saw.concat {s' : Stage} (h : s.Saw c es) (hr : s.request? c = some r) (hlead : Leads a s s') :
    s'.Saw c (es ++ [⟨r, a⟩]) := by
  cases hlead with
  | found hlists =>
    obtain rfl : es = [] := h
    obtain rfl := Option.some.inj hr
    exact ⟨a, rfl, hlists⟩
  | current y => trivial
  | @loaded x l _ hl hphase hs =>
    obtain ⟨listed, rfl, hlists⟩ := h
    obtain rfl := Option.some.inj hr
    rw [saw_of_source? hs]
    exact ⟨x, listed, a, [], rfl, hlists, hl, hphase⟩
  | @wrote _ _ l hs hs' =>
    rw [saw_of_source? hs] at h
    rw [saw_of_source? hs']
    obtain ⟨x, listed, loaded, rest, rfl, hseen⟩ := h.conversation
    exact ⟨x, listed, loaded, rest ++ [⟨r, a⟩], rfl, hseen⟩
  | ended _ rep => trivial

/-- so after every conversation -/
theorem Stage.saw_after (hasks : Stage.listing.Asks c es) : (Stage.listing.after es).Saw c es := by
  induction es using List.reverseRecOn with
  | nil => exact rfl
  | append_singleton es e ih =>
    obtain ⟨hfirst, hlast, -⟩ := asks_append_iff.1 hasks
    rw [after_concat]
    exact (ih hfirst).concat hlast (leads_next _ _)

/-- the requests that write a loaded object back -/
inductive WritesBack (c : Context) (l : LegacyResource) : Request → Prop where
  | patch (revision : Option String) : WritesBack c l ⟨c.namespaceName, .patchStatus .canonical (successor c l).name
      (Writing.statusPatch revision (Migration.status l.status none))⟩
  | replace (revision : Option String) : WritesBack c l (replaceRequest c l revision)
  | create : WritesBack c l ⟨c.namespaceName, .create .canonical (Canonical.kind.write (successor c l))⟩

/-- a write is one of the object that is to be written back -/
theorem Stage.exists_source_of_isWrite (hr : s.request? c = some r) (hw : r.isWrite = true) :
    ∃ l, s.source? = some l ∧ WritesBack c l r := by
  cases s with
  | finished rep => exact absurd hr nofun
  | patching l =>
    obtain rfl := Option.some.inj hr
    exact ⟨l, rfl, .patch _⟩
  | replacing l revision =>
    obtain rfl := Option.some.inj hr
    exact ⟨l, rfl, .replace _⟩
  | creating l =>
    obtain rfl := Option.some.inj hr
    exact ⟨l, rfl, .create⟩
  | describing l created =>
    obtain rfl := Option.some.inj hr
    exact ⟨l, rfl, .patch _⟩
  | _ =>
    obtain rfl := Option.some.inj hr
    exact absurd hw nofun

/-- a run that writes listed and loaded the object that it writes back -/
theorem exists_sighted {next : Answer → Program (Report Outcome)} (h : (run c).Reaches es (.send r next))
    (hw : r.isWrite = true) : ∃ l, Sighted c es l ∧ WritesBack c l r := by
  obtain ⟨hasks, hruns⟩ := (runs_run c).of_reaches h
  obtain ⟨hr, -⟩ := hruns.of_send
  obtain ⟨l, hs, hback⟩ := Stage.exists_source_of_isWrite hr hw
  exact ⟨l, (Stage.saw_of_source? hs).1 (Stage.saw_after hasks), hback⟩

end MigrationOperator.Pipeline
