/-
Runs that share a store, and what happens to it.

A `World` is the objects of a namespace and the runs that work on them. A `Step` is one request of one run, or a write
by somebody else: a request is served and its answer comes back or is lost, or it fails without effect. A run that is
never continued has crashed, and one that starts later is another index, so a `Trace` is any interleaving of any number
of concurrent, interrupted and repeated runs.

An object that stands at one revision at both ends of a stretch of a trace was not written in between, provided that
accepted writes give revisions that were never used (`Trace.unwritten`).
-/
import Mathlib.Data.List.Induction
import MigrationOperator.Proofs.Store.Basic
import MigrationOperator.Pipeline

namespace MigrationOperator

/-- the objects of a namespace, and the programs that the runs have left -/
structure World where
  objects : StringMap Json
  runs : Nat → Program (Pipeline.Report Pipeline.Outcome)

/-- the world after a run went on -/
def World.advance (W : World) (i : Nat) (p : Program (Pipeline.Report Pipeline.Outcome)) (objects : StringMap Json) :
    World where
  objects := objects
  runs j := if j = i then p else W.runs j

/-! ## Events -/

inductive Event where
  /-- a request of a run with the answer that came back, and the write if it was one that was accepted -/
  | sent (i : Nat) (r : Request) (a : Answer) (w : Option Write)
  /-- somebody else left an object at a revision, or removed it -/
  | foreign (name : String) (revision : Option String)

namespace Event

/-- the object that is written and the revision it is left at, if any -/
def write? : Event → Option (String × Option String)
  | .sent _ _ _ w => w.map fun w => (w.name, some w.revision)
  | .foreign name revision => some (name, revision)

/-- the revision that is given -/
def revision? (e : Event) : Option String := e.write?.bind Prod.snd

def Writes (e : Event) (name : String) : Prop := ∃ revision, e.write? = some (name, revision)

/-- a request of this run -/
def IsOf (i : Nat) : Event → Prop
  | .sent j _ _ _ => j = i
  | .foreign _ _ => False

instance (i : Nat) (e : Event) : Decidable (e.IsOf i) := by
  cases e <;> unfold IsOf <;> infer_instance

/-- a request of this method was accepted as a write -/
def Accepts (m : Method) : Event → Prop
  | .sent _ r _ (some _) => r.method = m
  | _ => False

instance (m : Method) (e : Event) : Decidable (e.Accepts m) := by
  unfold Accepts
  split <;> infer_instance

theorem Accepts.exists_sent {m : Method} {e : Event} (h : e.Accepts m) :
    ∃ i r a w, e = .sent i r a (some w) ∧ r.method = m := by
  cases e with
  | foreign name revision => exact absurd h id
  | sent i r a w =>
    cases w with
    | none => exact absurd h id
    | some w => exact ⟨i, r, a, w, rfl, h⟩

end Event

/-! ## Steps and traces -/

/-- one event in the namespace -/
inductive Step (namespaceName : String) : World → Event → World → Prop where
  /-- a request is served; its answer comes back, or is lost -/
  | served {W : World} {i : Nat} {r : Request} {next : Answer → Program (Pipeline.Report Pipeline.Outcome)}
    {a b : Answer} {w : Option Write} {objects : StringMap Json} (hi : W.runs i = .send r next)
    (hns : r.namespaceName = namespaceName) (h : Serves W.objects r.call b w objects) (ha : a = b ∨ a.Failed) :
    Step namespaceName W (.sent i r a w) (W.advance i (next a) objects)
  /-- a request fails without effect -/
  | refused {W : World} {i : Nat} {r : Request} {next : Answer → Program (Pipeline.Report Pipeline.Outcome)}
    {a : Answer} (hi : W.runs i = .send r next) (ha : a.Failed) :
    Step namespaceName W (.sent i r a none) (W.advance i (next a) W.objects)
  /-- somebody else writes an object -/
  | put {W : World} {name revision : String} {doc : Json} (h : doc.Stands name (some revision)) :
    Step namespaceName W (.foreign name (some revision)) { W with objects := W.objects.insert name doc }
  /-- somebody else removes an object -/
  | erased {W : World} {name : String} :
    Step namespaceName W (.foreign name none) { W with objects := W.objects.erase name }

/-- events one after another -/
inductive Trace (namespaceName : String) (W : World) : List Event → World → Prop where
  | start : Trace namespaceName W [] W
  | step {es : List Event} {e : Event} {W' W'' : World} (h : Trace namespaceName W es W')
    (hs : Step namespaceName W' e W'') : Trace namespaceName W (es ++ [e]) W''

namespace Trace

variable {ns : String} {W W' W'' : World} {es fs : List Event} {e : Event}

theorem snoc_iff : Trace ns W (es ++ [e]) W'' ↔ ∃ W', Trace ns W es W' ∧ Step ns W' e W'' := by
  constructor
  · generalize hfs : es ++ [e] = fs
    intro h
    cases h with
    | start => exact absurd hfs (by simp)
    | step h hs =>
      obtain ⟨rfl, rfl⟩ := List.append_inj' hfs rfl |>.imp id fun h => List.singleton_inj.1 h
      exact ⟨_, h, hs⟩
  · rintro ⟨W', h, hs⟩
    exact .step h hs

theorem nil_iff : Trace ns W [] W' ↔ W' = W := by
  constructor
  · generalize hes : [] = es
    intro h
    cases h with
    | start => rfl
    | step h hs => exact absurd hes (by simp)
  · rintro rfl
    exact .start

/-- a trace can be cut anywhere -/
theorem append_iff : Trace ns W (es ++ fs) W'' ↔ ∃ W', Trace ns W es W' ∧ Trace ns W' fs W'' := by
  induction fs using List.reverseRecOn generalizing W'' with
  | nil => simp [nil_iff]
  | append_singleton fs e ih =>
    rw [← List.append_assoc, snoc_iff]
    constructor
    · rintro ⟨W₁, h, hs⟩
      obtain ⟨W', h₁, h₂⟩ := ih.1 h
      exact ⟨W', h₁, .step h₂ hs⟩
    · rintro ⟨W', h₁, h₂⟩
      obtain ⟨W₁, h₂, hs⟩ := snoc_iff.1 h₂
      exact ⟨W₁, ih.2 ⟨W', h₁, h₂⟩, hs⟩

theorem cons_iff : Trace ns W (e :: fs) W'' ↔ ∃ W', Step ns W e W' ∧ Trace ns W' fs W'' := by
  rw [← List.singleton_append, append_iff]
  constructor
  · rintro ⟨W', h, h'⟩
    have hsnoc : Trace ns W ([] ++ [e]) W' := h
    obtain ⟨W₁, h₁, hs⟩ := snoc_iff.1 hsnoc
    exact ⟨W', nil_iff.1 h₁ ▸ hs, h'⟩
  · rintro ⟨W', hs, h'⟩
    have hsnoc : Trace ns W ([] ++ [e]) W' := .step .start hs
    exact ⟨W', hsnoc, h'⟩

/-- the trace passes a world after the events `pre` that it begins with, and `P` holds of it, whichever it is -/
structure After (ns : String) (W : World) (es : List Event) (W' : World) (pre : List Event) (P : World → Prop) :
    Prop where
  passes : ∃ V post, es = pre ++ post ∧ Trace ns W pre V ∧ Trace ns V post W'
  holds : ∀ V post, es = pre ++ post → Trace ns W pre V → Trace ns V post W' → P V

variable {pre post : List Event} {P : World → Prop}

theorem after_of_split (h : Trace ns W es W') (hes : es = pre ++ post)
    (hP : ∀ V, Trace ns W pre V → Trace ns V post W' → P V) : After ns W es W' pre P := by
  obtain ⟨V, h₁, h₂⟩ := append_iff.1 (hes ▸ h)
  refine ⟨⟨V, post, hes, h₁, h₂⟩, fun V' post' hes' h₁' h₂' => ?_⟩
  obtain rfl := List.append_cancel_left (hes.symm.trans hes')
  exact hP V' h₁' h₂'

theorem After.exists_world (h : After ns W es W' pre P) : ∃ V, Trace ns W pre V ∧ P V := by
  obtain ⟨V, post, hes, h₁, h₂⟩ := h.passes
  exact ⟨V, h₁, h.holds V post hes h₁ h₂⟩

end Trace

/-! ## Objects along a trace -/

section

variable {ns : String} {W W' : World} {es : List Event} {e : Event}

theorem Step.stored (hs : Step ns W e W') (h : Stored W.objects) : Stored W'.objects := by
  cases hs with
  | served _ _ hserves _ => exact hserves.stored h
  | refused _ _ => exact h
  | put hdoc => exact h.insert hdoc
  | @erased name =>
    intro n d hd
    have hget : Entries.find? n (Entries.erase name W.objects.entries) = some d := hd
    rw [Entries.find?_erase] at hget
    split at hget
    · exact absurd hget nofun
    · exact h n d hget

theorem Trace.stored (ht : Trace ns W es W') (h : Stored W.objects) : Stored W'.objects := by
  induction ht with
  | start => exact h
  | step _ hs ih => exact hs.stored ih

/-- a request of a run: the run goes on with the answer, which is a failure or what the store answered -/
theorem Step.sent_cases {i : Nat} {r : Request} {a : Answer} {w : Option Write} (hs : Step ns W (.sent i r a w) W') :
    ∃ next, W.runs i = .send r next ∧ W'.runs i = next a ∧ (a.Failed ∨ Serves W.objects r.call a w W'.objects) := by
  cases hs with
  | served hi _ hserves ha =>
    refine ⟨_, hi, if_pos rfl, ?_⟩
    rcases ha with rfl | ha
    · exact Or.inr hserves
    · exact Or.inl ha
  | refused hi ha => exact ⟨_, hi, if_pos rfl, Or.inl ha⟩

/-- an accepted write was served, whatever came back of its answer -/
theorem Step.accepted {i : Nat} {r : Request} {a : Answer} {w : Write} (hs : Step ns W (.sent i r a (some w)) W') :
    ∃ b, Serves W.objects r.call b (some w) W'.objects := by
  cases hs with
  | served _ _ hserves _ => exact ⟨_, hserves⟩

/-- a request had no effect and failed, or was served, and its answer came back or was lost -/
theorem Step.sent_effect {i : Nat} {r : Request} {a : Answer} {w : Option Write} (hs : Step ns W (.sent i r a w) W') :
    (W'.objects = W.objects ∧ a.Failed) ∨
      ∃ b, Serves W.objects r.call b w W'.objects ∧ (a = b ∨ a.Failed) := by
  cases hs with
  | served _ _ hserves ha => exact Or.inr ⟨_, hserves, ha⟩
  | refused _ ha => exact Or.inl ⟨rfl, ha⟩

/-- what is not accepted leaves the objects as they are -/
theorem Step.objects_eq {i : Nat} {r : Request} {a : Answer} (hs : Step ns W (.sent i r a none) W') :
    W'.objects = W.objects := by
  cases hs with
  | served _ _ hserves _ => exact hserves.objects_eq
  | refused _ _ => rfl

/-- nor does a request change anything that is no write -/
theorem Step.objects_eq_of_read {i : Nat} {r : Request} {a : Answer} {w : Option Write}
    (hs : Step ns W (.sent i r a w) W') (hr : r.isWrite = false) : W'.objects = W.objects := by
  cases w with
  | none => exact hs.objects_eq
  | some w =>
    obtain ⟨b, hserved⟩ := hs.accepted
    have hwrite : r.isWrite = true := hserved.isWrite
    rw [hr] at hwrite
    cases hwrite

/-- an answer to a read that decodes is the object as it was stored then -/
theorem Step.exists_of_decode_read {σ : Type} {k : Kind σ} {x : Resource σ} {i : Nat} {n name : String}
    {v : SchemaVersion} {a : Answer} {w : Option Write} (hs : Step ns W (.sent i ⟨n, .read v name⟩ a w) W')
    (hstored : Stored W.objects) (hx : Action.decode k.codec a = .ok x) :
    w = none ∧ W'.objects = W.objects ∧
      ∃ doc revision, W.objects.get? name = some doc ∧ doc.Stands name (some revision) ∧ k.codec.decode doc = .ok x := by
  obtain ⟨next, -, -, hfailed | hserved⟩ := hs.sent_cases
  · exact absurd hx (hfailed.decode_ne_ok _ _)
  · obtain ⟨hw, hobjects, -⟩ := hserved.read_cases
    exact ⟨hw, hobjects, hserved.exists_of_decode_read hstored hx⟩

/-- an event of nobody else leaves a run alone -/
theorem Step.runs_eq {i : Nat} (hs : Step ns W e W') (h : ¬ e.IsOf i) : W'.runs i = W.runs i := by
  cases hs with
  | served _ _ _ _ => exact if_neg fun hi => h hi.symm
  | refused _ _ => exact if_neg fun hi => h hi.symm
  | put _ => rfl
  | erased => rfl

/-- an event that does not write an object leaves it, and one that writes it leaves it at the revision given -/
theorem Step.get?_cases (hs : Step ns W e W') (name : String) :
    (¬ e.Writes name ∧ W'.objects.get? name = W.objects.get? name) ∨
      ∃ revision, e.write? = some (name, revision) ∧
        ∀ doc, W'.objects.get? name = some doc → doc.Stands name revision := by
  have hinsert : ∀ {n r : String} {doc : Json}, doc.Stands n (some r) → e.write? = some (n, some r) →
      W'.objects = W.objects.insert n doc → (¬ e.Writes name ∧ W'.objects.get? name = W.objects.get? name) ∨
        ∃ revision, e.write? = some (name, revision) ∧
          ∀ doc, W'.objects.get? name = some doc → doc.Stands name revision := by
    intro n r doc hdoc hwrite hobjects
    by_cases hn : name = n
    · subst hn
      refine Or.inr ⟨some r, hwrite, fun d hd => ?_⟩
      rw [hobjects, StringMap.get?_insert_self] at hd
      exact Option.some.inj hd ▸ hdoc
    · refine Or.inl ⟨?_, by rw [hobjects, StringMap.get?_insert, if_neg hn]⟩
      rintro ⟨revision, hr⟩
      rw [hwrite] at hr
      exact hn (Prod.mk.inj (Option.some.inj hr)).1.symm
  cases hs with
  | @served i r next a b w objects hi hns hserves ha =>
    cases w with
    | none => exact Or.inl ⟨fun ⟨_, hr⟩ => absurd hr nofun, by rw [World.advance, hserves.objects_eq]⟩
    | some w =>
      obtain ⟨doc, hobjects, hdoc⟩ := hserves.stands
      exact hinsert hdoc rfl hobjects
  | refused _ _ => exact Or.inl ⟨fun ⟨_, hr⟩ => absurd hr nofun, rfl⟩
  | put hdoc => exact hinsert hdoc rfl rfl
  | @erased n =>
    have hget : (W.objects.erase n).get? name = if name = n then none else W.objects.get? name :=
      Entries.find?_erase n name W.objects.entries
    by_cases hn : name = n
    · refine Or.inr ⟨none, by rw [hn]; rfl, fun d hd => ?_⟩
      rw [hget, if_pos hn] at hd
      exact absurd hd nofun
    · refine Or.inl ⟨?_, by rw [hget, if_neg hn]⟩
      rintro ⟨revision, hr⟩
      exact hn (Prod.mk.inj (Option.some.inj hr)).1.symm

/-- an object is as it was, or stands at the revision of the last write of it -/
theorem Trace.get?_cases (ht : Trace ns W es W') (name : String) :
    ((∀ e ∈ es, ¬ e.Writes name) ∧ W'.objects.get? name = W.objects.get? name) ∨
      ∃ e ∈ es, ∃ revision, e.write? = some (name, revision) ∧
        ∀ doc, W'.objects.get? name = some doc → doc.Stands name revision := by
  induction ht with
  | start => exact Or.inl ⟨fun _ he => absurd he List.not_mem_nil, rfl⟩
  | @step es e W' W'' _ hs ih =>
    rcases hs.get?_cases name with ⟨hno, hget⟩ | ⟨revision, hwrite, hstands⟩
    · rcases ih with ⟨hnone, hsame⟩ | ⟨e', he', revision, hwrite, hstands⟩
      · refine Or.inl ⟨fun x hx => ?_, hget.trans hsame⟩
        rcases List.mem_append.1 hx with hx | hx
        · exact hnone x hx
        · exact List.mem_singleton.1 hx ▸ hno
      · refine Or.inr ⟨e', List.mem_append_left _ he', revision, hwrite, fun doc hdoc => ?_⟩
        exact hstands doc (hget ▸ hdoc)
    · exact Or.inr ⟨e, List.mem_append_right _ (List.mem_singleton_self e), revision, hwrite, hstands⟩

end

/-! ## Fresh revisions -/

/-- no revision is given twice, nor is one given that an object already had -/
structure Fresh (objs : StringMap Json) (es : List Event) : Prop where
  nodup : (es.filterMap Event.revision?).Nodup
  new : ∀ name doc, objs.get? name = some doc → ∀ r ∈ es.filterMap Event.revision?, Cluster.revisionOf doc ≠ some r

theorem Fresh.of_append {objs : StringMap Json} {es fs : List Event} (h : Fresh objs (es ++ fs)) : Fresh objs es := by
  have hnodup := h.nodup
  rw [List.filterMap_append] at hnodup
  refine ⟨(List.nodup_append.1 hnodup).1, fun name doc hdoc r hr => h.new name doc hdoc r ?_⟩
  rw [List.filterMap_append]
  exact List.mem_append_left _ hr

/-- **An object at one revision was not written in between.** It stands at the revision at the start and at the end of a
stretch of a trace, and revisions are fresh: so it is the same object, and no event of the stretch wrote it. -/
theorem Trace.unwritten {ns : String} {W W₁ W₂ : World} {before mid : List Event} (h₁ : Trace ns W before W₁)
    (h₂ : Trace ns W₁ mid W₂) (hfresh : Fresh W.objects (before ++ mid)) {name revision : String} {doc₁ doc₂ : Json}
    (hdoc₁ : W₁.objects.get? name = some doc₁) (hstands₁ : doc₁.Stands name (some revision))
    (hdoc₂ : W₂.objects.get? name = some doc₂) (hstands₂ : doc₂.Stands name (some revision)) :
    (∀ e ∈ mid, ¬ e.Writes name) ∧ doc₂ = doc₁ := by
  rcases h₂.get?_cases name with ⟨hnone, hsame⟩ | ⟨e, he, r, hwrite, hr⟩
  · exact ⟨hnone, Option.some.inj (hdoc₂.symm.trans (hsame.trans hdoc₁))⟩
  -- otherwise a write of the stretch gave the revision that the object already had
  · obtain rfl : r = some revision := (hr doc₂ hdoc₂).revisionOf_eq.symm.trans hstands₂.revisionOf_eq
    have hgiven : revision ∈ mid.filterMap Event.revision? :=
      List.mem_filterMap.2 ⟨e, he, by rw [Event.revision?, hwrite]; rfl⟩
    rcases h₁.get?_cases name with ⟨-, hsame⟩ | ⟨e', he', r', hwrite', hr'⟩
    · refine absurd hstands₁.revisionOf_eq (hfresh.new name doc₁ (hsame ▸ hdoc₁) revision ?_)
      rw [List.filterMap_append]
      exact List.mem_append_right _ hgiven
    · obtain rfl : r' = some revision := (hr' doc₁ hdoc₁).revisionOf_eq.symm.trans hstands₁.revisionOf_eq
      have hgiven' : revision ∈ before.filterMap Event.revision? :=
        List.mem_filterMap.2 ⟨e', he', by rw [Event.revision?, hwrite']; rfl⟩
      have hnodup := hfresh.nodup
      rw [List.filterMap_append] at hnodup
      exact absurd rfl ((List.nodup_append.1 hnodup).2.2 revision hgiven' revision hgiven)

/-- a write that is pinned to a revision and accepted found the object as it was when it stood at that revision -/
theorem Trace.pinned {ns : String} {W W₁ W₂ : World} {before mid : List Event} (h₁ : Trace ns W before W₁)
    (h₂ : Trace ns W₁ mid W₂) (hstored : Stored W.objects) (hfresh : Fresh W.objects (before ++ mid))
    {name revision new : String} {doc₁ body doc doc' : Json} (hdoc₁ : W₁.objects.get? name = some doc₁)
    (hstands₁ : doc₁.Stands name (some revision)) (hbody : Cluster.revisionOf body = some revision)
    (hedited : Edited W₂.objects name new body doc doc') : (∀ e ∈ mid, ¬ e.Writes name) ∧ doc = doc₁ := by
  obtain ⟨r, hstands⟩ := h₂.stored (h₁.stored hstored) name doc hedited.found
  have hcurrent := hedited.current
  rw [Cluster.isCurrent, hbody, hstands.revisionOf_eq] at hcurrent
  obtain rfl : r = revision := by simpa using hcurrent
  exact h₁.unwritten h₂ hfresh hdoc₁ hstands₁ hedited.found hstands

/-! ## One object and no other writers -/

/-- one object is stored, and nobody but runs of the pipeline works on it -/
structure Solitary (name : String) (doc : Json) (W : World) (es : List Event) : Prop where
  objects : W.objects = .singleton name doc
  stands : ∃ revision, doc.Stands name (some revision)
  runs : ∀ i, ∃ c, W.runs i = Pipeline.run c
  sent : ∀ e ∈ es, ∃ i, e.IsOf i

namespace Solitary

variable {name : String} {doc : Json} {W : World} {es fs : List Event}

theorem stored (h : Solitary name doc W es) : Stored W.objects := h.objects ▸ .singleton h.stands

theorem of_append (h : Solitary name doc W (es ++ fs)) : Solitary name doc W es :=
  ⟨h.objects, h.stands, h.runs, fun e he => h.sent e (List.mem_append_left fs he)⟩

/-- the last event is a request of a run -/
theorem exists_sent {e : Event} (h : Solitary name doc W (es ++ [e])) : ∃ i r a w, e = .sent i r a w := by
  obtain ⟨i, hi⟩ := h.sent e (List.mem_append_right es (List.mem_singleton_self e))
  cases e with
  | sent j r a w => exact ⟨j, r, a, w, rfl⟩
  | foreign _ _ => exact absurd hi id

end Solitary

end MigrationOperator
