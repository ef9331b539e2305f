/-
Accepted writes of a run that loaded an object.

The token goes from the loaded object into the status patch, and from the answer to the patch into the replacement. With
fresh revisions an accepted patch found the very object that was loaded (`Load.Holds.patch_accepted`), and an accepted
replacement found what the patch left of it (`Load.Holds.replace_accepted`).
-/
import MigrationOperator.Proofs.Pipeline.Tracking

namespace MigrationOperator.Pipeline

variable {ns : String} {c : Context} {i : Nat} {W₀ W W' : World} {es : List Event} {L : Load}

/-! ## What a run writes -/

theorem isWrite_of_put {r : Request} (h : r.method = .put) : r.isWrite = true := by
  obtain ⟨n, call⟩ := r
  cases call <;> first | rfl | exact absurd h nofun

/-- a run that sends a write loaded an object, and it is its status patch or the replacement after it -/
theorem write_cases {r : Request} {a : Answer} {w : Option Write} (hstored : Stored W₀.objects)
    (hrun : W₀.runs i = run c) (ht : Trace ns W₀ es W) (hs : Step ns W (.sent i r a w) W') (hr : r.isWrite = true) :
    ∃ L : Load, L.Holds ns c i W₀ W ∧ es = L.events c i ∧ (r = patchRequest c L.legacy ∨ ∃ s₁ s₂ p w₁,
      L.since = s₁ ++ .sent i (patchRequest c L.legacy) p (some w₁) :: s₂ ∧
        r = replaceRequest c L.legacy (some w₁.revision)) := by
  obtain ⟨next, hi, -, -⟩ := hs.sent_cases
  cases tracked hstored hrun ht with
  | preliminary hruns hprelim _ =>
    rw [hi] at hruns
    exact absurd (hprelim.isWrite hruns.of_send.1) (by rw [hr]; exact nofun)
  | loaded L hat =>
    obtain ⟨hL, s, hruns, hprogress⟩ := hat
    rw [hi] at hruns
    have hrequest := hruns.of_send.1
    refine ⟨L, hL, rfl, ?_⟩
    generalize L.since = since at hprogress
    cases hprogress with
    | loaded _ => exact Or.inl (Option.some.inj hrequest).symm
    | @patched s₁ s₂ p w₁ _ _ => exact Or.inr ⟨s₁, s₂, p, w₁, rfl, (Option.some.inj hrequest).symm⟩
    | unpatched _ _ _ => exact absurd hrequest nofun
    | replaced _ _ _ _ => exact absurd hrequest nofun

/-! ## What it finds -/

/-- the moments at which a loaded object stood: when it was loaded, and before any event since -/
theorem Load.Holds.cut {s₁ s₂ : List Event} {e : Event} (h : L.Holds ns c i W₀ W) (hsince : L.since = s₁ ++ e :: s₂) :
    ∃ W₁ W₂, Load.Holds { L with since := s₁ } ns c i W₀ W₁ ∧ Step ns W₁ e W₂ ∧ Trace ns W₂ s₂ W := by
  obtain ⟨V₁, V₂, h₁, hdoc, hget, hsame, h₂⟩ := h.trace
  rw [hsince, Trace.append_iff] at h₂
  obtain ⟨W₁, h₂, h₃⟩ := h₂
  obtain ⟨W₂, hs, h₃⟩ := Trace.cons_iff.1 h₃
  exact ⟨W₁, W₂, { h with trace := ⟨V₁, V₂, h₁, hdoc, hget, hsame, h₂⟩ }, hs, h₃⟩

theorem Load.events_cut {s₁ t : List Event} (hsince : L.since = s₁ ++ t) :
    L.events c i = Load.events { L with since := s₁ } c i ++ t := by
  simp [Load.events, Load.event, hsince]

theorem Load.Holds.trace_events (h : L.Holds ns c i W₀ W) : Trace ns W₀ (L.events c i) W := by
  obtain ⟨V₁, V₂, h₁, -, hget, -, h₂⟩ := h.trace
  exact Trace.append_iff.2 ⟨V₁, h₁, Trace.cons_iff.2 ⟨V₂, hget, h₂⟩⟩

/-- an accepted status patch found the object as it was loaded -/
theorem Load.Holds.patch_accepted {a : Answer} {w : Write} (h : L.Holds ns c i W₀ W) (hstored : Stored W₀.objects)
    (hfresh : Fresh W₀.objects (L.events c i))
    (hs : Step ns W (.sent i (patchRequest c L.legacy) a (some w)) W') :
    w.name = L.name ∧ (∀ e ∈ L.since, ¬ e.Writes L.name) ∧ ∃ patch doc, W'.objects = W.objects.insert L.name doc ∧
      Patched W.objects L.name w.revision patch L.doc doc := by
  obtain ⟨revision, hstands, hrevision, hname⟩ := h.identity
  obtain ⟨V₁, V₂, h₁, hdoc, hget, hsame, h₂⟩ := h.trace
  obtain ⟨b, hserved⟩ := hs.accepted
  rcases hserved.patch_cases with ⟨doc, doc', r, hw, hobjects, hpatched, -⟩ | ⟨hw, -⟩
  · obtain rfl := Option.some.inj hw
    rw [hname] at hobjects hpatched
    have hbefore : Trace ns W₀ (L.before ++ [L.event c i]) V₂ := .step h₁ hget
    have hbody := (revisionOf_statusPatch L.legacy.metadata.resourceVersion
      (Migration.status L.legacy.status none)).trans hrevision
    have hevents : L.events c i = L.before ++ [L.event c i] ++ L.since := by simp [Load.events]
    obtain ⟨hunwritten, rfl⟩ := hbefore.pinned h₂ hstored (hevents ▸ hfresh) (hsame ▸ hdoc) hstands hbody
      hpatched.toEdited
    exact ⟨hname, hunwritten, _, doc', hobjects, hpatched⟩
  · cases hw

/-- an accepted replacement found what the status patch left of the object -/
theorem Load.Holds.replace_accepted {s₁ s₂ : List Event} {a b : Answer} {w w' : Write} (h : L.Holds ns c i W₀ W)
    (hsince : L.since = s₁ ++ .sent i (patchRequest c L.legacy) a (some w) :: s₂) (hstored : Stored W₀.objects)
    (hfresh : Fresh W₀.objects (L.events c i))
    (hs : Step ns W (.sent i (replaceRequest c L.legacy (some w.revision)) b (some w')) W') :
    w.name = L.name ∧ w'.name = L.name ∧ (∀ e ∈ s₁ ++ s₂, ¬ e.Writes L.name) ∧ ∃ doc doc',
      doc.get? "spec" = L.doc.get? "spec" ∧ W'.objects = W.objects.insert L.name doc' ∧
        Replaced W.objects L.name w'.revision (replacement c L.legacy (some w.revision)) doc doc' := by
  obtain ⟨W₁, W₂, hcut, hpatch, hrest⟩ := h.cut hsince
  have hname := h.identity.choose_spec.2.2
  have hevents : L.events c i =
      Load.events { L with since := s₁ } c i ++ [.sent i (patchRequest c L.legacy) a (some w)] ++ s₂ := by
    simp [Load.events, Load.event, hsince]
  have hbefore : Trace ns W₀
      (Load.events { L with since := s₁ } c i ++ [.sent i (patchRequest c L.legacy) a (some w)]) W₂ :=
    .step hcut.trace_events hpatch
  rw [hevents] at hfresh
  obtain ⟨hwname, hunwritten, patch, doc, hobjects, hpatched⟩ :=
    hcut.patch_accepted hstored hfresh.of_append.of_append hpatch
  obtain ⟨b', hserved⟩ := hs.accepted
  rcases hserved.replace_cases with ⟨found, doc', r, hw, hobjects', hreplaced, -⟩ | ⟨hw, -⟩
  · obtain rfl := Option.some.inj hw
    rw [hname] at hobjects' hreplaced
    have hdoc : W₂.objects.get? L.name = some doc := by rw [hobjects, StringMap.get?_insert_self]
    have hbody := (stands_replacement c L.legacy (some w.revision)).revisionOf_eq
    obtain ⟨hunwritten', rfl⟩ := hbefore.pinned hrest hstored hfresh hdoc hpatched.stands hbody hreplaced.toEdited
    refine ⟨hwname, hname, fun e he => ?_, found, doc', hpatched.spec, hobjects', hreplaced⟩
    exact (List.mem_append.1 he).elim (hunwritten e) (hunwritten' e)
  · cases hw

/-- an accepted replacement leaves the migrated spec -/
theorem exists_spec_of_replaceRequest {l : LegacyResource} {revision : Option String} {a : Answer} {w : Write}
    (hs : Step ns W (.sent i (replaceRequest c l revision) a (some w)) W') :
    ∃ doc, W'.objects.get? (successor c l).name = some doc ∧
      doc.get? "spec" = some (Canonical.Spec.codec.write (successor c l).spec) := by
  obtain ⟨b, hserved⟩ := hs.accepted
  rcases hserved.replace_cases with ⟨_, doc, _, -, hobjects, hreplaced, -⟩ | ⟨hw, -⟩
  · exact ⟨doc, by rw [hobjects, StringMap.get?_insert_self], by rw [hreplaced.spec, get?_spec_replacement]⟩
  · cases hw

/-- an accepted write of a run finds a legacy spec; a replacement leaves the migration of it -/
theorem accepted_cases {r : Request} {a : Answer} {w : Write} (hstored : Stored W₀.objects)
    (hrun : W₀.runs i = run c) (hfresh : Fresh W₀.objects es) (ht : Trace ns W₀ es W)
    (hs : Step ns W (.sent i r a (some w)) W') :
    ∃ doc doc' j old, W.objects.get? w.name = some doc ∧ doc.get? "spec" = some j ∧
      Legacy.Spec.codec.decode j = .ok old ∧ W'.objects = W.objects.insert w.name doc' ∧
      (r.method = .put →
        doc'.get? "spec" = some (Canonical.Spec.codec.write (Migration.spec old { forceMigration := true }))) := by
  obtain ⟨b, hserved⟩ := hs.accepted
  obtain ⟨L, hL, rfl, hr⟩ := write_cases hstored hrun ht hs hserved.isWrite
  obtain ⟨revision, hstands⟩ := hL.stands
  obtain ⟨j, hj, hold⟩ := hstands.exists_spec hL.reads
  rcases hr with rfl | ⟨s₁, s₂, p, w₁, hsince, rfl⟩
  · obtain ⟨hname, -, patch, doc, hobjects, hpatched⟩ := hL.patch_accepted hstored hfresh hs
    exact ⟨L.doc, doc, j, L.legacy.spec, hname ▸ hpatched.found, hj, hold, hname ▸ hobjects, nofun⟩
  · obtain ⟨-, hname, -, doc, doc', hspec, hobjects, hreplaced⟩ := hL.replace_accepted hsince hstored hfresh hs
    refine ⟨doc, doc', j, L.legacy.spec, hname ▸ hreplaced.found, hspec.trans hj, hold, hname ▸ hobjects, fun _ => ?_⟩
    rw [hreplaced.spec, get?_spec_replacement]
    rfl

end MigrationOperator.Pipeline
