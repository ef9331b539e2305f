/-
No update is lost.

One run shares a store with any other writers, in any interleaving; every accepted write gives a fresh revision.

- If the run's replacement is accepted, nobody but the run itself, with its status patch, wrote the object since the run
  loaded it. What the run decoded of the answer is the object that was stored at that moment of the trace, and the spec
  that the replacement leaves is the migration of it (`no_lost_update`, first part).
- If somebody else writes the object after it was loaded and before a write of the run, then the run ends with an error
  and its replacement is not accepted (second part).
-/
import MigrationOperator.Proofs.Pipeline.OnCluster
import MigrationOperator.Proofs.Pipeline.Pinned

namespace MigrationOperator.Pipeline

variable {ns : String} {c : Context} {i : Nat} {W₀ W W' : World} {es : List Event}

/-! ## A run's own requests in order -/

/-- the first request of a run among events is where the first one was put -/
theorem own_cases {s t A B : List Event} {x y : Event} (h : A ++ x :: B = s ++ y :: t) (hx : x.IsOf i)
    (hs : Rests i s) : (A = s ∧ x = y ∧ B = t) ∨ ∃ A', A = s ++ y :: A' ∧ t = A' ++ x :: B := by
  rcases List.append_eq_append_iff.1 h with ⟨u, hsA, hu⟩ | ⟨u, hA, hu⟩
  · cases u with
    | nil =>
      obtain ⟨rfl, rfl⟩ := List.cons.inj hu
      exact Or.inl ⟨by simpa using hsA.symm, rfl, rfl⟩
    | cons z u =>
      obtain ⟨rfl, -⟩ := List.cons.inj hu
      exact absurd hx (hs x (hsA ▸ by simp))
  · cases u with
    | nil =>
      obtain ⟨rfl, rfl⟩ := List.cons.inj hu
      exact Or.inl ⟨by simpa using hA, rfl, rfl⟩
    | cons z u =>
      obtain ⟨rfl, ht⟩ := List.cons.inj hu
      exact Or.inr ⟨u, hA, ht⟩

/-- a run that got an eligible object has written nothing before, and goes on from there -/
theorem exists_at_of_read {name : String} {g : Answer} {l : LegacyResource} (hstored : Stored W₀.objects)
    (hrun : W₀.runs i = run c) (ht : Trace ns W₀ es W)
    (hs : Step ns W (.sent i ⟨c.namespaceName, .read .legacy name⟩ g none) W')
    (hg : Action.decode Legacy.kind.codec g = .ok l) (hp : l.phase = .installed) :
    Quiet i es ∧ ∃ doc, Load.At ⟨l, name, doc, es, g, []⟩ ns c i W₀ W' := by
  obtain ⟨next, hi, hi', -⟩ := hs.sent_cases
  cases tracked hstored hrun ht with
  | @preliminary _ _ s hruns hprelim hquiet =>
    obtain ⟨-, hstage, doc, hL⟩ := load_of_decode ht (ht.stored hstored) hquiet hs hg hp
    rw [hi] at hruns
    obtain ⟨hr, hnext⟩ := hruns.of_send
    cases s with
    | loadingLegacy x =>
      have hnext := hnext g
      rw [Stage.next, hg] at hnext
      exact ⟨hquiet, doc, hL, _, hi' ▸ hstage ▸ hnext, .loaded fun _ hx => absurd hx List.not_mem_nil⟩
    | listing => cases hr
    | loadingCanonical x => cases hr
    | finished rep => cases hr
    | _ => exact absurd hprelim id
  | loaded L hat =>
    -- since it loaded an object, it sends writes only
    obtain ⟨-, s, hruns, hprogress⟩ := hat
    rw [hi] at hruns
    have hr := hruns.of_send.1
    generalize L.since = since at hprogress
    cases hprogress <;> cases hr

theorem Quiet.not_accepts (h : Quiet i es) {e : Event} (he : e ∈ es) (hi : e.IsOf i) : ¬ e.Accepts .put := by
  cases e with
  | foreign name revision => exact id
  | sent j r a w =>
    obtain rfl : j = i := hi
    cases w with
    | none => exact id
    | some w =>
      intro hput
      exact absurd (isWrite_of_put hput) (by rw [h r a _ he]; exact Bool.false_ne_true)

theorem not_accepts_patch {l : LegacyResource} {a : Answer} {w : Option Write} :
    ¬ (Event.sent i (patchRequest c l) a w).Accepts .put := by
  cases w with
  | none => exact id
  | some w => exact nofun

/-- before the writes of a run whose replacement was accepted, nobody else wrote the object that it loaded -/
theorem Load.Holds.not_overtaken {L : Load} (hL : L.Holds ns c i W₀ W) (hstored : Stored W₀.objects)
    (hfresh : Fresh W₀.objects (L.events c i)) {s₁ s₂ s₃ A B : List Event} {p b : Answer} {w w' : Write} {e x : Event}
    (h₁ : Rests i s₁) (h₂ : Rests i s₂) (h₃ : Rests i s₃)
    (hs : L.since = s₁ ++ .sent i (patchRequest c L.legacy) p (some w) ::
      (s₂ ++ .sent i (replaceRequest c L.legacy (some w.revision)) b (some w') :: s₃))
    (hsplit : L.since = A ++ x :: B) (hx : x.IsOf i) (he : e ∈ A) (hother : ¬ e.IsOf i) : ¬ e.Writes L.name := by
  have hs' : L.since = (s₁ ++ .sent i (patchRequest c L.legacy) p (some w) :: s₂) ++
      .sent i (replaceRequest c L.legacy (some w.revision)) b (some w') :: s₃ := by simp [hs]
  obtain ⟨W₁, W₂, hcut, hreplace, -⟩ := hL.cut hs'
  have hunwritten := (hcut.replace_accepted rfl hstored (Load.events_cut hs' ▸ hfresh).of_append hreplace).2.2.1
  -- the own request at the split is the status patch or the replacement
  rcases own_cases (hsplit.symm.trans hs) hx h₁ with ⟨rfl, -, -⟩ | ⟨A', rfl, ht⟩
  · exact hunwritten e (List.mem_append_left _ he)
  rcases own_cases ht.symm hx h₂ with ⟨rfl, -, -⟩ | ⟨A'', -, ht'⟩
  · rcases List.mem_append.1 he with he | he
    · exact hunwritten e (List.mem_append_left _ he)
    · rcases List.mem_cons.1 he with rfl | he
      · exact absurd rfl hother
      · exact hunwritten e (List.mem_append_right _ he)
  · exact absurd hx (h₃ _ (by rw [ht']; simp))

/-- once somebody else wrote a loaded object, the next write of the run fails, and so does the run -/
theorem Load.At.overtaken {L : Load} (h : L.At ns c i W₀ W) (hstored : Stored W₀.objects)
    (hfresh : Fresh W₀.objects (L.events c i)) {mid mid' post : List Event} {e : Event} {r : Request} {a : Answer}
    {w : Option Write} (hsince : L.since = mid ++ e :: (mid' ++ .sent i r a w :: post)) (he : e.Writes L.name)
    (hother : ¬ e.IsOf i) :
    (∃ rep err, W.runs i = .done rep ∧ rep.result = .error err) ∧ ∀ x ∈ L.since, x.IsOf i → ¬ x.Accepts .put := by
  obtain ⟨hL, s, hruns, hprogress⟩ := h
  have hown : Event.IsOf i (.sent i r a w) := rfl
  have hsplit : L.since = (mid ++ e :: mid') ++ .sent i r a w :: post := by simp [hsince]
  have hmem : e ∈ mid ++ e :: mid' := by simp
  generalize hs : L.since = since at hprogress
  cases hprogress with
  | loaded hrest => exact absurd hown (hrest _ (by rw [← hs, hsplit]; simp))
  | @patched s₁ s₂ p w₁ h₁ h₂ =>
    rcases own_cases (hsplit.symm.trans hs) hown h₁ with ⟨hA, -, -⟩ | ⟨A', -, ht⟩
    · obtain ⟨W₁, W₂, hcut, hpatch, -⟩ := hL.cut hs
      have hunwritten := (hcut.patch_accepted hstored (Load.events_cut hs ▸ hfresh).of_append hpatch).2.1
      exact absurd he (hunwritten e (hA ▸ hmem))
    · exact absurd hown (h₂ _ (by rw [ht]; simp))
  | @unpatched s₁ s₂ p w₁ rep err h₁ h₂ hrep =>
    refine ⟨⟨rep, err, hruns.eq_done, hrep⟩, fun x hx hxi => ?_⟩
    rcases List.mem_append.1 hx with hx | hx
    · exact absurd hxi (h₁ x hx)
    · rcases List.mem_cons.1 hx with rfl | hx
      · exact not_accepts_patch
      · exact absurd hxi (h₂ x hx)
  | @replaced s₁ s₂ s₃ p b w₁ w' rep h₁ h₂ h₃ hrep =>
    cases w' with
    | none =>
      obtain ⟨err, herr⟩ := hrep rfl
      refine ⟨⟨rep, err, hruns.eq_done, herr⟩, fun x hx hxi => ?_⟩
      simp only [List.mem_append, List.mem_cons] at hx
      rcases hx with hx | rfl | hx | rfl | hx
      · exact absurd hxi (h₁ x hx)
      · exact not_accepts_patch
      · exact absurd hxi (h₂ x hx)
      · exact id
      · exact absurd hxi (h₃ x hx)
    | some w' => exact absurd he (hL.not_overtaken hstored hfresh h₁ h₂ h₃ hs hsplit hown hmem hother)

/-- **No update is lost.** An accepted replacement stores the migration of what was loaded, which nobody else wrote since;
and whoever is overtaken fails. -/
theorem no_lost_update (hstored : Stored W₀.objects) (hrun : W₀.runs i = run c) (ht : Trace ns W₀ es W)
    (hfresh : Fresh W₀.objects es) :
    (∀ before r a w after, es = before ++ .sent i r a (some w) :: after → r.method = .put →
      ∃ name l x pre g mid q p w₁ mid',
        before = pre ++ .sent i ⟨c.namespaceName, .read .legacy name⟩ g none :: (mid ++ .sent i q p (some w₁) :: mid') ∧
        q.method = .patch ∧ w₁.name = name ∧ w.name = name ∧ (∀ e ∈ mid ++ mid', ¬ e.Writes name) ∧
        Action.decode Legacy.kind.codec g = .ok l ∧
        Migration.migrate? l (Migration.standIn l c.namespaceName) = some x ∧
        Trace.After ns W₀ es W pre (fun V => ∃ doc j, V.objects.get? name = some doc ∧
          Legacy.kind.codec.decode doc = .ok l ∧ doc.get? "spec" = some j ∧ Legacy.Spec.codec.decode j = .ok l.spec) ∧
        Trace.After ns W₀ es W (before ++ [.sent i r a (some w)]) (fun V => ∃ doc, V.objects.get? name = some doc ∧
          doc.get? "spec" = some (Canonical.Spec.codec.write x.spec))) ∧
    ∀ pre name g l mid e mid' r a w post,
      es = pre ++ .sent i ⟨c.namespaceName, .read .legacy name⟩ g none :: (mid ++ e :: (mid' ++ .sent i r a w :: post)) →
      Action.decode Legacy.kind.codec g = .ok l → Migration.isEligible l (Migration.standIn l c.namespaceName) = true →
      e.Writes name → ¬ e.IsOf i → r.isWrite = true →
      (∃ rep err, W.runs i = .done rep ∧ rep.result = .error err) ∧ ∀ x ∈ es, x.IsOf i → ¬ x.Accepts .put := by
  refine ⟨fun before r a w after hes hr => ?_, ?_⟩
  · rw [hes] at hfresh
    obtain ⟨V, hbefore, hrest⟩ := Trace.append_iff.1 (hes ▸ ht)
    obtain ⟨V', hs, -⟩ := Trace.cons_iff.1 hrest
    obtain ⟨L, hL, rfl, hsent⟩ := write_cases hstored hrun hbefore hs (isWrite_of_put hr)
    obtain ⟨s₁, s₂, p, w₁, hsince, rfl⟩ := hsent.resolve_left fun h => absurd (h ▸ hr) nofun
    obtain ⟨hname₁, hname, hunwritten, -⟩ := hL.replace_accepted hsince hstored hfresh.of_append hs
    refine ⟨L.name, L.legacy, successor c L.legacy, L.before, L.answer, s₁, patchRequest c L.legacy, p, w₁, s₂, ?_, rfl,
      hname₁, hname, hunwritten, hL.answered, migrate?_standIn hL.eligible _, ?_, ?_⟩
    · rw [Load.events, hsince]
      rfl
    · -- whatever world the object was loaded from, the answer is what was stored there
      refine ht.after_of_split (hes.trans (List.append_assoc _ _ _)) fun V₁ hpre hpost => ?_
      obtain ⟨V₂, hget, -⟩ := Trace.cons_iff.1 hpost
      obtain ⟨-, -, doc, revision, hdoc, hstands, hread⟩ :=
        hget.exists_of_decode_read (hpre.stored hstored) hL.answered
      obtain ⟨j, hj, hold⟩ := hstands.exists_spec hread
      exact ⟨doc, j, hdoc, hread, hj, hold⟩
    · refine ht.after_of_split (hes.trans (List.append_assoc _ [_] _).symm) fun V₁ hput _ => ?_
      obtain ⟨V₂, -, hs₂⟩ := Trace.snoc_iff.1 hput
      obtain ⟨revision, -, -, hsuccessor⟩ := hL.identity
      exact hsuccessor ▸ exists_spec_of_replaceRequest hs₂
  · intro pre name g l mid e mid' r a w post hes hg heligible he hother hwrite
    have hp := isEligible_standIn_iff.1 heligible
    rw [hes] at ht hfresh ⊢
    obtain ⟨V, hpre, hrest⟩ := Trace.append_iff.1 ht
    obtain ⟨V', hget, hrest⟩ := Trace.cons_iff.1 hrest
    obtain ⟨hquiet, doc, hat⟩ := exists_at_of_read hstored hrun hpre hget hg hp
    obtain ⟨hend, hnone⟩ := (hat.trace hrest).overtaken hstored hfresh rfl he hother
    refine ⟨hend, fun x hx hxi => ?_⟩
    rcases List.mem_append.1 hx with hx | hx
    · exact hquiet.not_accepts hx hxi
    · rcases List.mem_cons.1 hx with rfl | hx
      · exact id
      · exact hnone x hx hxi

/-- the installation is migrated by a run that nobody disturbs, and a run that is overtaken fails -/
theorem no_lost_update_installation :
    (∃ es W doc l x, Trace "syndesis" beginning es W ∧
      Migration.migrate? l (Migration.standIn l "syndesis") = some x ∧ W.objects.get? "app" = some doc ∧
      doc.get? "spec" = some (Canonical.Spec.codec.write x.spec)) ∧
    ∃ es W rep err, Trace "syndesis" beginning es W ∧ W.runs 0 = .done rep ∧ rep.result = .error err := by
  have hstored : Stored beginning.objects := .singleton ⟨"1", stands_installation⟩
  constructor
  · obtain ⟨l, a₁, a₂, a₃, a₄, _, W, rfl, ht, hfresh, -⟩ := exists_wholeRun
    obtain ⟨name, l', x, -, -, -, -, -, -, -, -, -, -, hname, -, -, hmigrate, -, hafter⟩ :=
      (no_lost_update (i := 0) hstored rfl ht hfresh).1 [_, _, _] _ a₄ ⟨"app", "3"⟩ [] rfl rfl
    obtain rfl : "app" = name := hname
    obtain ⟨V, hV, doc, hdoc, hspec⟩ := hafter.exists_world
    exact ⟨_, V, doc, l', x, hV, hmigrate, hdoc, hspec⟩
  · obtain ⟨l, a₁, a₂, _, W, rfl, hphase, hread, ht, hfresh⟩ := exists_overtakenRun
    obtain ⟨rep, err, hdone, herr⟩ := ((no_lost_update (i := 0) hstored rfl ht hfresh).2 [_] "app" a₂ l [] _ [] _ _ _ []
      rfl hread (isEligible_standIn_iff.2 hphase) ⟨some "2", rfl⟩ id rfl).1
    exact ⟨_, W, rep, err, ht, hdone, herr⟩

end MigrationOperator.Pipeline
