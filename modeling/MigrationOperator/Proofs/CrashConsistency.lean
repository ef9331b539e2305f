/-
Interrupted migrations leave nothing half done that cannot be completed.

A store holds one installed legacy object, and any number of runs work on it, one after another or side by side. Each of
their requests succeeds, or fails without effect, or takes effect while its answer is lost, and any run may stop at any
moment. `Consistent` is the invariant: the object stands at one of the three extents of the migration, and whatever a run
is about to write, it is what the migration of the source writes there. `Consistent.step` shows that one request keeps it,
and `crash_consistent` what it means: the spec is the original one or the migrated one, the status written is the same
each time, and one run without faults completes the migration from wherever it stands.
-/
import MigrationOperator.Proofs.Pipeline.OnCluster

namespace MigrationOperator.Pipeline

variable {ns : String} {o : Source} {x x' : Extent} {c : Context} {W₀ W W' : World} {es : List Event}

/-! ## What a run is about to write -/

/-- a stage that writes nothing but the migration of the source, and replaces only after the status was written -/
def Stage.Follows (o : Source) (x : Extent) : Stage → Prop
  | .patching l => o.Agrees l
  | .replacing l _ => o.Agrees l ∧ x ≠ .untouched
  | .creating _ | .describing _ _ => False
  | .listing | .loadingLegacy _ | .loadingCanonical _ | .finished _ => True

theorem Stage.IsPreliminary.follows {s : Stage} (h : s.IsPreliminary) : s.Follows o x := by
  cases s with
  | listing => exact trivial
  | loadingLegacy _ => exact trivial
  | loadingCanonical _ => exact trivial
  | finished _ => exact trivial
  | _ => exact absurd h id

theorem Stage.Follows.mono {s : Stage} (h : s.Follows o x) (hx : x ≠ .untouched → x' ≠ .untouched) :
    s.Follows o x' := by
  cases s with
  | replacing l revision => exact ⟨h.1, hx h.2⟩
  | _ => exact h

/-- a run that got no answer, or a failure, writes nothing any more -/
theorem Stage.follows_of_failed (s : Stage) {a : Answer} (h : a.Failed) : (s.next a).Follows o x := by
  have hmissed : ∀ (s : Stage) census e, (s.missed census e).Follows o x :=
    fun s census e => (isPreliminary_missed s census e).follows
  cases s with
  | listing =>
    obtain ⟨e, he⟩ := h.exists_decode_eq ObjectList.codec
    rw [Stage.next, he]
    exact hmissed _ _ _
  | loadingLegacy y =>
    obtain ⟨e, he⟩ := h.exists_decode_eq Legacy.kind.codec
    rw [Stage.next, he]
    exact hmissed _ _ _
  | loadingCanonical y =>
    obtain ⟨e, he⟩ := h.exists_decode_eq Canonical.kind.codec
    rw [Stage.next, he]
    exact hmissed _ _ _
  | patching l =>
    obtain ⟨e, he⟩ := h.exists_decode_eq Opaque.codec
    rw [Stage.next, he]
    exact trivial
  | replacing l revision =>
    obtain ⟨e, he⟩ := h.exists_decode_eq Canonical.kind.codec
    rw [Stage.next, he]
    exact trivial
  | creating l =>
    obtain ⟨e, he⟩ := h.exists_decode_eq Canonical.kind.codec
    rw [Stage.next, he]
    exact trivial
  | describing l created =>
    obtain ⟨e, he⟩ := h.exists_decode_eq Opaque.codec
    rw [Stage.next, he]
    exact trivial
  | finished rep => exact trivial

/-- after a replacement, whatever its answer, a run is over -/
theorem Stage.follows_next_replacing (l : LegacyResource) (revision : Option String) (a : Answer) :
    ((Stage.replacing l revision).next a).Follows o x := by
  rw [Stage.next]
  cases Action.decode Canonical.kind.codec a with
  | ok y => exact trivial
  | error e => exact trivial

theorem Stage.follows_next_patching {l : LegacyResource} (hl : o.Agrees l) (hx : x ≠ .untouched) (a : Answer) :
    ((Stage.patching l).next a).Follows o x := by
  rw [Stage.next]
  cases Action.decode Opaque.codec a with
  | ok patched => exact ⟨hl, hx⟩
  | error e => exact trivial

/-- what is loaded of the stored object agrees with the source, and is loaded at a revision -/
theorem Stage.follows_next_loadingLegacy {doc : Json} {y : LegacyResource} {a : Answer} {w : Option Write}
    {objs : StringMap Json} (h : o.Holds x doc)
    (ha : a.Failed ∨ Serves (.singleton o.name doc) (.read .legacy y.name) a w objs) :
    ((Stage.loadingLegacy y).next a).Follows o x := by
  rcases ha with hfailed | hs
  · exact follows_of_failed _ hfailed
  obtain ⟨-, -, hserved⟩ := hs.read_cases
  rcases hserved with ⟨found, hfound, ha⟩ | ⟨-, hfailed⟩
  · obtain ⟨-, rfl⟩ := StringMap.get?_singleton_eq_some.1 hfound
    obtain ⟨revision, hstands⟩ := h.stands
    rw [Stage.next, ha.decode_eq]
    cases hl : Legacy.kind.codec.decode (Cluster.label .legacy found) with
    | error e => exact (isPreliminary_missed _ _ _).follows
    | ok l =>
      have hread := (hstands.decode_label_iff _).1 hl
      obtain ⟨-, hphase, hl⟩ := h.of_decode_legacy hread
      show (Stage.afterLoading l).Follows o x
      rw [afterLoading_eq_patching hphase (hstands.identity_of_decode hread).2]
      exact hl
  · exact follows_of_failed _ hfailed

/-! ## The invariant -/

/-- the object stands at an extent, and every run is at a stage that fits it -/
def Consistent (o : Source) (W : World) : Prop :=
  ∃ x doc, W.objects = .singleton o.name doc ∧ o.Holds x doc ∧
    ∀ i, ∃ c s, Runs c s (W.runs i) ∧ s.Follows o x

/-- the invariant after a request of one run: the object went on, if at all, and so did that run alone -/
theorem Consistent.of_sent {i : Nat} {r : Request} {a : Answer} {w : Option Write} {doc : Json} {s : Stage}
    (hruns : ∀ j, ∃ c s, Runs c s (W.runs j) ∧ s.Follows o x) (hs : Step ns W (.sent i r a w) W')
    (hi : Runs c s (W'.runs i)) (hobjects : W'.objects = .singleton o.name doc) (hdoc : o.Holds x' doc)
    (hx : x ≠ .untouched → x' ≠ .untouched) (hstage : s.Follows o x') : Consistent o W' := by
  refine ⟨x', doc, hobjects, hdoc, fun j => ?_⟩
  by_cases hj : j = i
  · subst hj
    exact ⟨c, s, hi, hstage⟩
  · obtain ⟨c', s', hr, hf⟩ := hruns j
    exact ⟨c', s', hs.runs_eq (fun hij => hj hij.symm) ▸ hr, hf.mono hx⟩

/-- **One request keeps the invariant**, and a status that it writes is the one that the source notes. -/
theorem Consistent.step {i : Nat} {r : Request} {a : Answer} {w : Option Write} (h : Consistent o W)
    (hs : Step ns W (.sent i r a w) W') :
    Consistent o W' ∧ ∀ v n patch, r.call = .patchStatus v n patch → patch.get? "status" = some o.note := by
  obtain ⟨x, doc, hobjects, hdoc, hruns⟩ := h
  obtain ⟨c, s, hr, hfollows⟩ := hruns i
  obtain ⟨next, hi, hi', hserved⟩ := hs.sent_cases
  rw [hi] at hr
  obtain ⟨hrequest, hnext⟩ := hr.of_send
  have heffect := hs.sent_effect
  rw [hobjects] at hserved heffect
  have hkeeps : ∀ x' doc', W'.objects = .singleton o.name doc' → o.Holds x' doc' →
      (x ≠ .untouched → x' ≠ .untouched) → (s.next a).Follows o x' → Consistent o W' :=
    fun _ _ hobjects' hdoc' => Consistent.of_sent hruns hs (hi' ▸ hnext a) hobjects' hdoc'
  cases s with
  | listing =>
    obtain rfl := Option.some.inj hrequest
    have hsame := (hs.objects_eq_of_read rfl).trans hobjects
    exact ⟨hkeeps x doc hsame hdoc id (Stage.isPreliminary_next_listing a).follows, nofun⟩
  | loadingCanonical y =>
    obtain rfl := Option.some.inj hrequest
    have hsame := (hs.objects_eq_of_read rfl).trans hobjects
    exact ⟨hkeeps x doc hsame hdoc id (Stage.isPreliminary_next_loadingCanonical y a).follows, nofun⟩
  | loadingLegacy y =>
    obtain rfl := Option.some.inj hrequest
    have hsame := (hs.objects_eq_of_read rfl).trans hobjects
    exact ⟨hkeeps x doc hsame hdoc id (Stage.follows_next_loadingLegacy hdoc hserved), nofun⟩
  | patching l =>
    obtain rfl := Option.some.inj hrequest
    constructor
    · rcases heffect with ⟨hsame, hfailed⟩ | ⟨b, hb, ha⟩
      · exact hkeeps x doc hsame hdoc id (Stage.follows_of_failed _ hfailed)
      · rcases hdoc.serves_patch hfollows hb with ⟨hsame, hfailed⟩ | ⟨doc', revision, -, hobjects', hdoc', -⟩
        · have hlost : a.Failed := by
            rcases ha with rfl | ha
            · exact hfailed.1
            · exact ha
          exact hkeeps x doc hsame hdoc id (Stage.follows_of_failed _ hlost)
        · exact hkeeps x.note doc' hobjects' hdoc' (fun _ => x.note_ne_untouched)
            (Stage.follows_next_patching hfollows x.note_ne_untouched a)
    · intro v n patch hcall
      obtain ⟨-, -, rfl⟩ := Call.patchStatus.inj hcall
      exact hfollows.get?_status _
  | replacing l revision =>
    obtain rfl := Option.some.inj hrequest
    refine ⟨?_, nofun⟩
    obtain ⟨hl, hx⟩ := hfollows
    rcases heffect with ⟨hsame, -⟩ | ⟨b, hb, -⟩
    · exact hkeeps x doc hsame hdoc id (Stage.follows_next_replacing l revision a)
    · rcases hdoc.serves_replace hl hx hb with ⟨hsame, -⟩ | ⟨doc', new, -, hobjects', hdoc', -⟩
      · exact hkeeps x doc hsame hdoc id (Stage.follows_next_replacing l revision a)
      · exact hkeeps .migrated doc' hobjects' hdoc' nofun (Stage.follows_next_replacing l revision a)
  | creating l => exact absurd hfollows id
  | describing l created => exact absurd hfollows id
  | finished rep => exact absurd hrequest nofun

/-- so do all requests of all runs -/
theorem Consistent.trace {name : String} {doc : Json} (hsolitary : Solitary name doc W₀ es) (h : Consistent o W₀)
    (ht : Trace ns W₀ es W) :
    Consistent o W ∧ ∀ i r a w v n patch, .sent i r a w ∈ es → r.call = .patchStatus v n patch →
      patch.get? "status" = some o.note := by
  induction ht with
  | start => exact ⟨h, fun _ _ _ _ _ _ _ he => absurd he List.not_mem_nil⟩
  | @step es e W W' ht hs ih =>
    obtain ⟨hW, hnote⟩ := ih hsolitary.of_append
    obtain ⟨i, r, a, w, rfl⟩ := hsolitary.exists_sent
    obtain ⟨hW', hnote'⟩ := hW.step hs
    refine ⟨hW', fun j r' a' w' v n patch he hcall => ?_⟩
    rcases List.mem_append.1 he with he | he
    · exact hnote j r' a' w' v n patch he hcall
    · obtain ⟨-, rfl, -, -⟩ := Event.sent.inj (List.mem_singleton.1 he)
      exact hnote' v n patch hcall

/-! ## What it means -/

/-- the one object has this spec and this status, and is installed -/
def Completed (name : String) (spec status : Json) (objs : StringMap Json) : Prop :=
  ∃ doc, objs = .singleton name doc ∧ doc.at? ["status", "phase"] = some (.str "Installed") ∧
    doc.get? "spec" = some spec ∧ doc.get? "status" = some status

theorem completed_of_holds {doc : Json} {objs : StringMap Json} (h : o.Holds .migrated doc)
    (hobjects : objs = .singleton o.name doc) :
    Completed o.name (Canonical.Spec.codec.write o.target) (Json.mergePatch o.note (.obj o.members)) objs :=
  ⟨doc, hobjects, h.phase, h.spec, h.status⟩

section

variable {σ : Type} {doc : Json} (store : Store ns σ) (s : σ) (hobjects : store.objects s = .singleton o.name doc)
  (hnamespace : IsName ns) (hname : IsName o.name)

include hobjects hnamespace hname

/-- a run on a migrated object changes nothing -/
theorem upToDate_of_holds (h : o.Holds .migrated doc) (hns : c.namespaceName = ns) :
    ((run c).exec store.serve s).result.result = .ok .upToDate ∧
      store.objects ((run c).exec store.serve s).server = store.objects s := by
  rcases completes hobjects hns hnamespace hname h with ⟨hx, -⟩ | ⟨-, hresult, hfinal⟩
  · exact absurd rfl hx
  · exact ⟨hresult, hfinal.trans hobjects.symm⟩

/-- one run without faults completes the migration, and after it another one changes nothing -/
theorem completed_of_run (h : o.Holds x doc) (hns : c.namespaceName = ns) :
    Completed o.name (Canonical.Spec.codec.write o.target) (Json.mergePatch o.note (.obj o.members))
        (store.objects ((run c).exec store.serve s).server) ∧
      ((∃ z, ((run c).exec store.serve s).result.result = .ok (.migrated z)) ∨
        ((run c).exec store.serve s).result.result = .ok .upToDate ∧
          store.objects ((run c).exec store.serve s).server = store.objects s) ∧
      ∀ c', c'.namespaceName = ns →
        ((run c').exec store.serve ((run c).exec store.serve s).server).result.result = .ok .upToDate ∧
          store.objects ((run c').exec store.serve ((run c).exec store.serve s).server).server =
            store.objects ((run c).exec store.serve s).server := by
  rcases completes hobjects hns hnamespace hname h with ⟨-, doc', z, hfinal, hdoc', hresult⟩ | ⟨rfl, hresult, hfinal⟩
  · exact ⟨completed_of_holds hdoc' hfinal, Or.inl ⟨z, hresult⟩,
      fun c' hns' => upToDate_of_holds store _ hfinal hnamespace hname hdoc' hns'⟩
  · exact ⟨completed_of_holds h hfinal, Or.inr ⟨hresult, hfinal.trans hobjects.symm⟩,
      fun c' hns' => upToDate_of_holds store _ hfinal hnamespace hname h hns'⟩

end

/-- **Crash consistency.** One installed legacy object is stored, with a status that is an object, and any number of runs
work on it, whatever becomes of their requests. Then the spec is the original one or the migrated one, the phase stays,
every status that is written is the one of the migration, and from where it stands one run without faults completes the
migration, always in the same way; whoever finds it complete changes nothing. -/
theorem crash_consistent {name : String} {doc : Json} {d : Opaque} {l : LegacyResource} {ms : List (String × Json)}
    (h : Solitary name doc W₀ es) (hname : IsName name) (hnamespace : IsName ns)
    (hd : Opaque.codec.decode doc = .ok d) (hclass : classify d = .ok (.legacy l)) (hphase : l.phase = .installed)
    (hstatus : doc.get? "status" = some (.obj ms)) (ht : Trace ns W₀ es W) :
    ∃ y status, Migration.migrate? l (Migration.standIn l ns) = some y ∧ y.status = some status ∧
      (∃ doc', W.objects = .singleton name doc' ∧ doc'.at? ["status", "phase"] = some (.str "Installed") ∧
        (doc'.get? "spec" = doc.get? "spec" ∨ doc'.get? "spec" = some (Canonical.Spec.codec.write y.spec))) ∧
      (∀ i r a w v n patch, .sent i r a w ∈ es → r.call = .patchStatus v n patch →
        patch.get? "status" = some (Status.codec.write status)) ∧
      ∀ {σ : Type} (store : Store ns σ) (s : σ) (c : Context), store.objects s = W.objects → c.namespaceName = ns →
        Completed name (Canonical.Spec.codec.write y.spec) (Json.mergePatch (Status.codec.write status) (.obj ms))
            (store.objects ((run c).exec store.serve s).server) ∧
          ((∃ z, ((run c).exec store.serve s).result.result = .ok (.migrated z)) ∨
            ((run c).exec store.serve s).result.result = .ok .upToDate ∧
              store.objects ((run c).exec store.serve s).server = store.objects s) ∧
          ∀ c', c'.namespaceName = ns →
            ((run c').exec store.serve ((run c).exec store.serve s).server).result.result = .ok .upToDate ∧
              store.objects ((run c').exec store.serve ((run c).exec store.serve s).server).server =
                store.objects ((run c).exec store.serve s).server := by
  obtain ⟨revision, hstands⟩ := h.stands
  obtain ⟨o, rfl, hold, hobserved, rfl, hspec, hdoc⟩ := Source.exists_source hstands hd hclass hstatus hphase
  have htarget : (Migration.apply l (Migration.standIn l ns)).spec = o.target := by
    show Migration.spec l.spec { forceMigration := true } = o.target
    rw [← hold]
    rfl
  have hnote : Status.codec.write (Migration.status l.status none) = o.note := by
    rw [hobserved]
    rfl
  have hstart : Consistent o W₀ := by
    refine ⟨.untouched, doc, h.objects, hdoc, fun i => ?_⟩
    obtain ⟨c, hrun⟩ := h.runs i
    exact ⟨c, .listing, hrun ▸ runs_run c, trivial⟩
  obtain ⟨⟨x, doc', hobjects, hdoc', -⟩, hpatches⟩ := hstart.trace h ht
  refine ⟨_, _, migrate?_standIn hphase ns, rfl, ⟨doc', hobjects, hdoc'.phase, ?_⟩, ?_, ?_⟩
  · rw [htarget, hspec, hdoc'.spec]
    cases x with
    | untouched => exact Or.inl rfl
    | noted => exact Or.inl rfl
    | migrated => exact Or.inr rfl
  · intro i r a w v n patch he hcall
    exact (hpatches i r a w v n patch he hcall).trans (congrArg some hnote.symm)
  · intro σ store s c hs hns
    have hcompleted := completed_of_run store s (hs.trans hobjects) hnamespace hname hdoc' hns
    rw [← htarget, ← hnote] at hcompleted
    exact hcompleted

/-- a run on the installation stops after its status patch, and another one on the cluster completes the migration -/
theorem crash_consistent_installation : ∃ es W cluster y status, Trace "syndesis" beginning es W ∧
    (∃ e ∈ es, e.Accepts .patch) ∧ (Cluster.asStore "syndesis").objects cluster = W.objects ∧
    Migration.migrate? installation (Migration.standIn installation "syndesis") = some y ∧
    Completed "app" (Canonical.Spec.codec.write y.spec) status ((Cluster.asStore "syndesis").objects
      ((run installationContext).exec (Cluster.asStore "syndesis").serve cluster).server) := by
  obtain ⟨l, a₁, a₂, a₃, a₄, es, W₄, rfl, ht, -, hsolitary⟩ := exists_wholeRun
  rw [← List.take_append_drop 3 (reading _ _ _ _ _ ++ writing _ _ _ _ _ _ _ _)] at ht hsolitary
  obtain ⟨W, ht, -⟩ := Trace.append_iff.1 ht
  obtain ⟨d, hd, hclass⟩ := exists_classify_installation
  obtain ⟨y, status, hmigrate, -, -, -, hcompletes⟩ :=
    crash_consistent hsolitary.of_append isName_app isName_syndesis hd hclass rfl get?_status_installation ht
  have hcompleted := (hcompletes (Cluster.asStore "syndesis") ⟨{ objects := W.objects }, rfl, rfl⟩ installationContext
    rfl rfl).1
  exact ⟨_, W, _, y, _, ht, ⟨_, List.mem_of_getLast? rfl, rfl⟩, rfl, hmigrate, hcompleted⟩

end MigrationOperator.Pipeline
