/-
A stored object is migrated at most once.

Any number of runs share a store that holds one object, in any interleaving and with any of them interrupted, and nobody
else writes; every accepted write gives a fresh revision. An accepted write of a run finds a spec that decodes as a
legacy one, whatever the run listed before, and a replacement leaves one that does not. So after an accepted replacement
nothing is accepted any more (`settled`), and `migrated_at_most_once` follows.
-/
import MigrationOperator.Proofs.Classification
import MigrationOperator.Proofs.Pipeline.OnCluster
import MigrationOperator.Proofs.Pipeline.Pinned

namespace MigrationOperator.Pipeline

variable {ns name : String} {doc : Json} {W₀ V W : World} {es fs : List Event}

/-- a canonical spec is stored -/
def Settled (name : String) (W : World) : Prop :=
  ∃ doc s, W.objects = .singleton name doc ∧ doc.get? "spec" = some (Canonical.Spec.codec.write s)

/-- the object stays alone in the store -/
theorem exists_singleton (h : Solitary name doc W₀ es) (hfresh : Fresh W₀.objects es) (ht : Trace ns W₀ es W) :
    ∃ doc', W.objects = .singleton name doc' := by
  induction ht with
  | start => exact ⟨doc, h.objects⟩
  | @step es e W W' ht hs ih =>
    obtain ⟨doc', hobjects⟩ := ih h.of_append hfresh.of_append
    obtain ⟨i, r, a, w, rfl⟩ := h.exists_sent
    cases w with
    | none => exact ⟨doc', hs.objects_eq.trans hobjects⟩
    | some w =>
      obtain ⟨c, hrun⟩ := h.runs i
      obtain ⟨found, left, -, -, hfound, -, -, hleft, -⟩ := accepted_cases h.stored hrun hfresh.of_append ht hs
      rw [hobjects] at hfound
      have hname := (StringMap.get?_singleton_eq_some.1 hfound).1
      exact ⟨left, by rw [hleft, hobjects, hname, StringMap.insert_singleton]⟩

/-- an accepted replacement settles the object -/
theorem settled_of_put {i : Nat} {r : Request} {a : Answer} {w : Write}
    (h : Solitary name doc W₀ (es ++ [.sent i r a (some w)]))
    (hfresh : Fresh W₀.objects (es ++ [.sent i r a (some w)])) (ht : Trace ns W₀ (es ++ [.sent i r a (some w)]) W)
    (hr : r.method = .put) : Settled name W := by
  obtain ⟨doc', hobjects⟩ := exists_singleton h hfresh ht
  obtain ⟨V, ht, hs⟩ := Trace.snoc_iff.1 ht
  obtain ⟨c, hrun⟩ := h.runs i
  obtain ⟨-, left, -, old, -, -, -, hleft, hspec⟩ := accepted_cases h.stored hrun hfresh.of_append ht hs
  have hget : W.objects.get? w.name = some left := by rw [hleft, StringMap.get?_insert_self]
  rw [hobjects] at hget
  obtain ⟨-, rfl⟩ := StringMap.get?_singleton_eq_some.1 hget
  exact ⟨left, _, hobjects, hspec hr⟩

/-- once the object is settled, nothing is accepted any more -/
theorem settled (h : Solitary name doc W₀ (es ++ fs)) (hfresh : Fresh W₀.objects (es ++ fs)) (ht : Trace ns W₀ es V)
    (hv : Settled name V) (ht' : Trace ns V fs W) : W.objects = V.objects ∧ ∀ e ∈ fs, e.write? = none := by
  induction ht' with
  | start => exact ⟨rfl, fun e he => absurd he List.not_mem_nil⟩
  | @step fs e W W' ht' hs ih =>
    rw [← List.append_assoc] at h hfresh
    obtain ⟨hobjects, hnone⟩ := ih h.of_append hfresh.of_append
    obtain ⟨i, r, a, w, rfl⟩ := h.exists_sent
    cases w with
    | none =>
      refine ⟨hs.objects_eq.trans hobjects, fun e he => ?_⟩
      rcases List.mem_append.1 he with he | he
      · exact hnone e he
      · rw [List.mem_singleton.1 he]
        rfl
    | some w =>
      -- a write that was accepted would have found a legacy spec
      exfalso
      obtain ⟨d, s, hd, hspec⟩ := hv
      obtain ⟨c, hrun⟩ := h.runs i
      have hbefore : Trace ns W₀ (es ++ fs) W := Trace.append_iff.2 ⟨V, ht, ht'⟩
      obtain ⟨found, -, j, old, hfound, hj, hold, -, -⟩ :=
        accepted_cases h.stored hrun hfresh.of_append hbefore hs
      rw [hobjects, hd] at hfound
      obtain ⟨-, rfl⟩ := StringMap.get?_singleton_eq_some.1 hfound
      obtain rfl := Option.some.inj (hspec.symm.trans hj)
      exact Legacy.decode_canonical_ne s old hold

/-- after an accepted replacement no other one is accepted -/
theorem not_accepts_after_put {e x : Event} (h : Solitary name doc W₀ (es ++ [e])) (hfresh : Fresh W₀.objects (es ++ [e]))
    (ht : Trace ns W₀ (es ++ [e]) W) (hx : x ∈ es) (hput : x.Accepts .put) : ¬ e.Accepts .put := by
  obtain ⟨i, r, a, w, rfl, hr⟩ := hput.exists_sent
  obtain ⟨before, after, rfl⟩ := List.append_of_mem hx
  have hsplit : before ++ .sent i r a (some w) :: after ++ [e] =
      before ++ [.sent i r a (some w)] ++ (after ++ [e]) := by simp
  rw [hsplit] at h hfresh ht
  obtain ⟨V, ht, ht'⟩ := Trace.append_iff.1 ht
  have hsettled := settled_of_put h.of_append hfresh.of_append ht hr
  have hnone := (settled h hfresh ht hsettled ht').2 e (List.mem_append_right _ (List.mem_singleton_self e))
  intro he
  obtain ⟨j, r', a', w', rfl, -⟩ := he.exists_sent
  exact absurd hnone nofun

theorem countP_put_le_one (h : Solitary name doc W₀ es) (hfresh : Fresh W₀.objects es) (ht : Trace ns W₀ es W) :
    es.countP (Event.Accepts .put ·) ≤ 1 := by
  induction ht with
  | start => simp
  | @step es e W W' ht hs ih =>
    have hbefore := ih h.of_append hfresh.of_append
    rw [List.countP_append, List.countP_singleton]
    by_cases he : e.Accepts .put
    · have hzero : es.countP (Event.Accepts .put ·) = 0 := by
        refine List.countP_eq_zero.2 fun x hx hput => ?_
        exact not_accepts_after_put h hfresh (.step ht hs) hx (of_decide_eq_true hput) he
      simp [hzero, he]
    · simpa [he] using hbefore

/-- a run that reports a migration had its replacement accepted -/
theorem exists_put_of_migrated {c : Context} {i : Nat} {rep : Report Outcome} {x : CanonicalResource}
    (hstored : Stored W₀.objects) (hrun : W₀.runs i = run c) (ht : Trace ns W₀ es W) (hdone : W.runs i = .done rep)
    (hrep : rep.result = .ok (.migrated x)) : ∃ r a w, .sent i r a (some w) ∈ es ∧ r.method = .put := by
  have hsuccess : ∀ e, rep.result ≠ .error e := by
    intro e he
    rw [hrep] at he
    exact absurd he nofun
  cases tracked hstored hrun ht with
  | preliminary hruns hprelim hquiet =>
    rw [hdone] at hruns
    rcases hruns.of_done with rfl | ⟨e, he⟩
    · exact absurd hrep (hprelim x)
    · exact absurd he (hsuccess e)
  | loaded L hat =>
    obtain ⟨hL, s, hruns, hprogress⟩ := hat
    rw [hdone] at hruns
    have hstage : s = .finished rep := hruns.of_done.resolve_right fun ⟨e, he⟩ => hsuccess e he
    subst hstage
    generalize hsince : L.since = since at hprogress
    cases hprogress with
    | unpatched _ _ he => exact absurd he (hsuccess _)
    | @replaced s₁ s₂ s₃ p b w w' rep h₁ h₂ h₃ hfailed =>
      cases w' with
      | none =>
        obtain ⟨e, he⟩ := hfailed rfl
        exact absurd he (hsuccess e)
      | some w' =>
        refine ⟨replaceRequest c L.legacy (some w.revision), b, w', ?_, rfl⟩
        simp [Load.events, hsince]

/-- **At most one migration.** At most one replacement is ever accepted, a run reports a migration only when it was its
own, and after it the object never changes again: neither spec nor status nor anything else. -/
theorem migrated_at_most_once (h : Solitary name doc W₀ es) (hfresh : Fresh W₀.objects es) (ht : Trace ns W₀ es W) :
    es.countP (Event.Accepts .put ·) ≤ 1 ∧
      (∀ i rep x, W.runs i = .done rep → rep.result = .ok (.migrated x) →
        ∃ r a w, .sent i r a (some w) ∈ es ∧ r.method = .put) ∧
      ∀ before i r a w after, es = before ++ .sent i r a (some w) :: after → r.method = .put →
        (∀ j rep x, W.runs j = .done rep → rep.result = .ok (.migrated x) → j = i) ∧
        ∀ V, Trace ns W₀ (before ++ [.sent i r a (some w)]) V → Trace ns V after W → W.objects = V.objects := by
  have hmigrated : ∀ i rep x, W.runs i = .done rep → rep.result = .ok (.migrated x) →
      ∃ r a w, .sent i r a (some w) ∈ es ∧ r.method = .put := by
    intro i rep x hdone hrep
    obtain ⟨c, hrun⟩ := h.runs i
    exact exists_put_of_migrated h.stored hrun ht hdone hrep
  have hcount := countP_put_le_one h hfresh ht
  refine ⟨hcount, hmigrated, ?_⟩
  rintro before i r a w after rfl hr
  constructor
  · intro j rep x hdone hrep
    obtain ⟨r', a', w', hmem, hr'⟩ := hmigrated j rep x hdone hrep
    -- two accepted replacements would be counted
    have haccepts : Event.Accepts .put (.sent i r a (some w)) := hr
    rw [List.countP_append, List.countP_cons_of_pos (by simpa using haccepts)] at hcount
    have hnone : ∀ l : List Event, l.countP (Event.Accepts .put ·) = 0 → .sent j r' a' (some w') ∉ l := by
      intro l hl hin
      exact List.countP_eq_zero.1 hl _ hin (decide_eq_true hr')
    rcases List.mem_append.1 hmem with hin | hin
    · exact absurd hin (hnone before (by omega))
    · rcases List.mem_cons.1 hin with heq | hin
      · exact (Event.sent.inj heq).1
      · exact absurd hin (hnone after (by omega))
  · intro V hbefore hafter
    have hsplit : before ++ .sent i r a (some w) :: after = before ++ [.sent i r a (some w)] ++ after := by simp
    rw [hsplit] at h hfresh
    have hsettled := settled_of_put h.of_append hfresh.of_append hbefore hr
    exact (settled h hfresh hbefore hsettled hafter).1

/-- the installation is migrated exactly once by a whole run -/
theorem migrated_at_most_once_installation :
    ∃ es W, Trace "syndesis" beginning es W ∧ es.countP (Event.Accepts .put ·) = 1 := by
  obtain ⟨l, a₁, a₂, a₃, a₄, _, W, rfl, ht, hfresh, hsolitary⟩ := exists_wholeRun
  have hle := (migrated_at_most_once hsolitary hfresh ht).1
  exact ⟨_, W, ht, Nat.le_antisymm hle (List.countP_pos_iff.2 ⟨_, List.mem_of_getLast? rfl, rfl⟩)⟩

end MigrationOperator.Pipeline
