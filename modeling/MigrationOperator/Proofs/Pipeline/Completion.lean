/-
One run without faults.

Wherever the migration of a stored object stands, a run that a store serves request by request completes it: at each
stage the store answers what the run goes on with (`next_listing` to `next_replacing`). So the run gets as far as its
replacement (`Arrives`) and reports a migration, or finds a canonical object and changes nothing (`completes`).
-/
import MigrationOperator.Proofs.Api.Sending
import MigrationOperator.Proofs.Pipeline.Source

namespace MigrationOperator.Pipeline

variable {o : Source} {x : Extent} {doc : Json} {c : Context} {objs : StringMap Json} {a : Answer} {w : Option Write}

/-! ## Stage by stage -/

/-- the one object is listed under its name, and its extent decides how the run goes on -/
theorem next_listing (h : o.Holds x doc) (hs : Serves (.singleton o.name doc) .list a w objs) :
    objs = .singleton o.name doc ∧
      ((x ≠ .migrated ∧ ∃ y : LegacyResource, y.name = o.name ∧ Stage.listing.next a = .loadingLegacy y) ∨
        (x = .migrated ∧ ∃ y : CanonicalResource, y.name = o.name ∧ Stage.listing.next a = .loadingCanonical y)) := by
  obtain ⟨-, hsame, revision, ha⟩ := hs.list_cases
  obtain ⟨d, k, hd, hk, hname, hversion⟩ := h.exists_classify
  have hread := (ha.decode_ok_iff ObjectList.codec).2 (Json.decode_listing hd revision)
  have hnext : Stage.listing.next a = .afterListing (.ok [k]) := by
    rw [Stage.next, hread]
    dsimp only
    rw [Candidates.classifyAll_singleton, hk]
    rfl
  refine ⟨hsame, ?_⟩
  cases k with
  | legacy y => exact Or.inl ⟨fun hx => (by cases hversion.2 hx), y, hname, hnext⟩
  | canonical y => exact Or.inr ⟨hversion.1 rfl, y, hname, hnext⟩

/-- an object that is not migrated is loaded, and is to be patched -/
theorem next_loadingLegacy (h : o.Holds x doc) (hx : x ≠ .migrated) (y : LegacyResource)
    (hs : Serves (.singleton o.name doc) (.read .legacy o.name) a w objs) :
    objs = .singleton o.name doc ∧
      ∃ l, Legacy.kind.codec.decode doc = .ok l ∧ Action.decode Legacy.kind.codec a = .ok l ∧
        (Stage.loadingLegacy y).next a = .patching l := by
  obtain ⟨-, hsame, hserved⟩ := hs.read_cases
  obtain ⟨revision, hstands⟩ := h.stands
  rcases hserved with ⟨doc', hdoc, ha⟩ | ⟨hnone, -⟩
  · obtain ⟨-, rfl⟩ := StringMap.get?_singleton_eq_some.1 hdoc
    obtain ⟨l, hl⟩ := h.exists_decode_legacy hx
    have hread := (ha.decode_ok_iff Legacy.kind.codec).2 ((hstands.decode_label_iff _).2 hl)
    have hphase := (h.of_decode_legacy hl).2.1
    refine ⟨hsame, l, hl, hread, ?_⟩
    rw [Stage.next, hread]
    exact Stage.afterLoading_eq_patching hphase (hstands.identity_of_decode hl).2
  · rw [StringMap.get?_singleton_self] at hnone
    cases hnone

/-- a canonical object is left alone -/
theorem next_loadingCanonical (h : o.Holds .migrated doc) (y : CanonicalResource)
    (hs : Serves (.singleton o.name doc) (.read .canonical o.name) a w objs) :
    objs = .singleton o.name doc ∧ (Stage.loadingCanonical y).next a = .finished ⟨some ⟨0, 1⟩, .ok .upToDate⟩ := by
  obtain ⟨-, hsame, hserved⟩ := hs.read_cases
  obtain ⟨revision, hstands⟩ := h.stands
  rcases hserved with ⟨doc', hdoc, ha⟩ | ⟨hnone, -⟩
  · obtain ⟨-, rfl⟩ := StringMap.get?_singleton_eq_some.1 hdoc
    obtain ⟨z, hz⟩ := h.exists_decode_canonical
    have hread := (ha.decode_ok_iff Canonical.kind.codec).2 ((hstands.decode_label_iff _).2 hz)
    refine ⟨hsame, ?_⟩
    rw [Stage.next, hread]
    rfl
  · rw [StringMap.get?_singleton_self] at hnone
    cases hnone

/-- the status of a loaded object is written, and the answer carries the new revision -/
theorem next_patching (h : o.Holds x doc) {l : LegacyResource} (hl : Legacy.kind.codec.decode doc = .ok l)
    (hs : Serves (.singleton o.name doc) (patchRequest c l).call a w objs) :
    ∃ doc' revision, w = some ⟨o.name, revision⟩ ∧ objs = .singleton o.name doc' ∧ o.Holds x.note doc' ∧
      doc'.Stands o.name (some revision) ∧ (Stage.patching l).next a = .replacing l (some revision) := by
  obtain ⟨pin, hstands⟩ := h.stands
  obtain ⟨hname, hpin⟩ := hstands.identity_of_decode hl
  rcases h.serves_patch (h.of_decode_legacy hl).2.2 hs with
    ⟨-, -, hstale⟩ | ⟨doc', revision, hw, hobjects, hdoc', hstands', ha⟩
  · exact absurd hpin (hstale (successor_name hname) pin hstands)
  · obtain ⟨d, -, hd, -⟩ := hdoc'.exists_classify
    have hread := (ha.decode_ok_iff Opaque.codec).2 hd
    have hrevision := (hstands'.label .canonical).revision_eq_of_decode hd
    refine ⟨doc', revision, hw, hobjects, hdoc', hstands', ?_⟩
    rw [Stage.next, hread]
    dsimp only
    rw [hrevision]

/-- the spec is replaced at the revision that the status write answered, and the run is over -/
theorem next_replacing (h : o.Holds x doc) (hx : x ≠ .untouched) {l : LegacyResource} {revision : String}
    (hname : l.metadata.name = some o.name) (hl : o.Agrees l) (hstands : doc.Stands o.name (some revision))
    (hs : Serves (.singleton o.name doc) (replaceRequest c l (some revision)).call a w objs) :
    ∃ doc' new y, w = some ⟨o.name, new⟩ ∧ objs = .singleton o.name doc' ∧ o.Holds .migrated doc' ∧
      (Stage.replacing l (some revision)).next a = .finished ⟨some ⟨1, 0⟩, .ok (.migrated y)⟩ := by
  rcases h.serves_replace hl hx hs with ⟨-, hstale⟩ | ⟨doc', new, hw, hobjects, hdoc', hstands', ha⟩
  · exact absurd rfl (hstale (successor_name hname) revision hstands)
  · obtain ⟨y, hy⟩ := hdoc'.exists_decode_canonical
    have hread := (ha.decode_ok_iff Canonical.kind.codec).2 ((hstands'.decode_label_iff _).2 hy)
    refine ⟨doc', new, y, hw, hobjects, hdoc', ?_⟩
    rw [Stage.next, hread]
    rfl

/-! ## The whole run -/

/-- a run at a stage sends the request of the stage, provided that its names are proper -/
theorem Runs.exists_send {p : Program (Report Outcome)} {stage : Stage} {call : Call} (h : Runs c stage p)
    (hcall : stage.call? c = some call) (hnames : Request.HasNames ⟨c.namespaceName, call⟩) :
    ∃ next, p = .send ⟨c.namespaceName, call⟩ next ∧ ∀ a, Runs c (stage.next a) (next a) := by
  have hrequest : stage.request? c = some ⟨c.namespaceName, call⟩ := by rw [Stage.request?, hcall]; rfl
  exact h.exists_send_of_fault? hrequest (Request.fault?_of_names hnames)

section

variable {ns : String} {σ : Type} {store : Store ns σ} {s : σ} {p : Program (Report Outcome)}

/-- a run at a stage has its request served, and goes on where the answer leads -/
theorem exec_of_runs (store : Store ns σ) (s : σ) {stage : Stage} {call : Call} (h : Runs c stage p)
    (hcall : stage.call? c = some call) (hns : c.namespaceName = ns) (hnames : Request.HasNames ⟨c.namespaceName, call⟩)
    (hproper : call.Proper) (hstored : Stored (store.objects s)) :
    ∃ a w s' p', Serves (store.objects s) call a w (store.objects s') ∧ Runs c (stage.next a) p' ∧
      (p.exec store.serve s).result = (p'.exec store.serve s').result ∧
      (p.exec store.serve s).server = (p'.exec store.serve s').server := by
  obtain ⟨next, rfl, hnext⟩ := h.exists_send hcall hnames
  obtain ⟨w, hserved⟩ := store.lawful s _ hns (Request.hasPlainNames_of_names hnames) hproper hstored
  exact ⟨_, w, _, _, hserved, hnext _, rfl, rfl⟩

theorem exec_of_finished (store : Store ns σ) (s : σ) {rep : Report Outcome} (h : Runs c (.finished rep) p) :
    (p.exec store.serve s).result = rep ∧ (p.exec store.serve s).server = s := by
  rw [h.eq_done]
  exact ⟨rfl, rfl⟩

/-- a program leaves the object migrated, and reports the migration -/
def Migrates (store : Store ns σ) (s : σ) (o : Source) (p : Program (Report Outcome)) : Prop :=
  ∃ doc y, store.objects (p.exec store.serve s).server = .singleton o.name doc ∧ o.Holds .migrated doc ∧
    (p.exec store.serve s).result.result = .ok (.migrated y)

/-- a program goes as far as its replacement: the status is written, and what is to be replaced stands at the revision that
the replacement carries -/
def Arrives (c : Context) (store : Store ns σ) (s : σ) (o : Source) (p : Program (Report Outcome)) : Prop :=
  ∃ x doc l revision s' p', x ≠ .untouched ∧ store.objects s' = .singleton o.name doc ∧ o.Holds x doc ∧
    doc.Stands o.name (some revision) ∧ l.metadata.name = some o.name ∧ o.Agrees l ∧
    Runs c (.replacing l (some revision)) p' ∧ (p.exec store.serve s).result = (p'.exec store.serve s').result ∧
    (p.exec store.serve s).server = (p'.exec store.serve s').server

section

variable (hobjects : store.objects s = .singleton o.name doc) (hns : c.namespaceName = ns) (hnamespace : IsName ns)
  (hname : IsName o.name)

include hns hnamespace hname

theorem hasNames_of_call (call : Call) (h : ∀ n, call.name? = some n → n = o.name) :
    Request.HasNames ⟨c.namespaceName, call⟩ :=
  ⟨hns ▸ hnamespace, fun n hn => h n hn ▸ hname⟩

/-- from there it completes the migration -/
theorem Arrives.migrates (h : Arrives c store s o p) : Migrates store s o p := by
  obtain ⟨x, doc, l, revision, s₁, p₁, hx, hobjects, hholds, hstands, hlname, hl, hp, hresult₁, hserver₁⟩ := h
  have hnames := hasNames_of_call hns hnamespace hname (replaceRequest c l (some revision)).call
    fun n hn => Option.some.inj hn ▸ successor_name hlname
  obtain ⟨a, w, s', p', hs, hp', hresult, hserver⟩ := exec_of_runs store s₁ hp rfl hns hnames
    ⟨_, stands_replacement c l _⟩ (hobjects ▸ .singleton hholds.stands)
  rw [hobjects] at hs
  obtain ⟨doc', new, y, -, hobjects', hdoc', hstage⟩ := next_replacing hholds hx hlname hl hstands hs
  rw [hstage] at hp'
  obtain ⟨hreport, hfinal⟩ := exec_of_finished store s' hp'
  exact ⟨doc', y, by rw [hserver₁, hserver, hfinal, hobjects'], hdoc', by rw [hresult₁, hresult, hreport]⟩

include hobjects

theorem arrives_patching (h : o.Holds x doc) {l : LegacyResource} (hl : Legacy.kind.codec.decode doc = .ok l)
    (hp : Runs c (.patching l) p) : Arrives c store s o p := by
  obtain ⟨revision, hstands⟩ := h.stands
  have hlname := (hstands.identity_of_decode hl).1
  have hagrees := (h.of_decode_legacy hl).2.2
  have hnames := hasNames_of_call hns hnamespace hname (patchRequest c l).call
    fun n hn => Option.some.inj hn ▸ successor_name hlname
  obtain ⟨a, w, s', p', hs, hp', hresult, hserver⟩ := exec_of_runs store s hp rfl hns hnames
    (normal_statusPatch _ _) (hobjects ▸ .singleton h.stands)
  rw [hobjects] at hs
  obtain ⟨doc', revision', -, hobjects', hdoc', hstands', hstage⟩ := next_patching h hl hs
  rw [hstage] at hp'
  exact ⟨_, doc', l, revision', s', p', x.note_ne_untouched, hobjects', hdoc', hstands', hlname, hagrees, hp', hresult,
    hserver⟩

theorem arrives_loadingLegacy (h : o.Holds x doc) (hx : x ≠ .migrated) {y : LegacyResource} (hy : y.name = o.name)
    (hp : Runs c (.loadingLegacy y) p) : Arrives c store s o p := by
  have hnames := hasNames_of_call hns hnamespace hname (.read .legacy y.name)
    fun n hn => Option.some.inj hn ▸ hy
  obtain ⟨a, w, s', p', hs, hp', hresult, hserver⟩ := exec_of_runs store s hp rfl hns hnames trivial
    (hobjects ▸ .singleton h.stands)
  rw [hobjects, hy] at hs
  obtain ⟨hobjects', l, hl, -, hstage⟩ := next_loadingLegacy h hx y hs
  rw [hstage] at hp'
  have hrest := arrives_patching hobjects' hns hnamespace hname h hl hp'
  rwa [Arrives, hresult, hserver]

/-- a run that is served gets there unless the object is migrated already -/
theorem arrives (h : o.Holds x doc) (hx : x ≠ .migrated) : Arrives c store s o (run c) := by
  obtain ⟨a, w, s', p', hs, hp', hresult, hserver⟩ := exec_of_runs store s (runs_run c) rfl hns
    (hasNames_of_call hns hnamespace hname .list nofun) trivial (hobjects ▸ .singleton h.stands)
  rw [hobjects] at hs
  obtain ⟨hobjects', hlisted⟩ := next_listing h hs
  obtain ⟨-, y, hy, hstage⟩ := hlisted.resolve_right fun hm => hx hm.1
  rw [hstage] at hp'
  have hrest := arrives_loadingLegacy hobjects' hns hnamespace hname h hx hy hp'
  rwa [Arrives, hresult, hserver]

theorem exec_loadingCanonical (h : o.Holds .migrated doc) {y : CanonicalResource} (hy : y.name = o.name)
    (hp : Runs c (.loadingCanonical y) p) :
    (p.exec store.serve s).result.result = .ok .upToDate ∧
      store.objects (p.exec store.serve s).server = .singleton o.name doc := by
  have hnames := hasNames_of_call hns hnamespace hname (.read .canonical y.name)
    fun n hn => Option.some.inj hn ▸ hy
  obtain ⟨a, w, s', p', hs, hp', hresult, hserver⟩ := exec_of_runs store s hp rfl hns hnames trivial
    (hobjects ▸ .singleton h.stands)
  rw [hobjects, hy] at hs
  obtain ⟨hobjects', hstage⟩ := next_loadingCanonical h y hs
  rw [hstage] at hp'
  obtain ⟨hreport, hfinal⟩ := exec_of_finished store s' hp'
  exact ⟨by rw [hresult, hreport], by rw [hserver, hfinal, hobjects']⟩

/-- and then it finds that nothing is to be done -/
theorem exec_upToDate (h : o.Holds .migrated doc) :
    ((run c).exec store.serve s).result.result = .ok .upToDate ∧
      store.objects ((run c).exec store.serve s).server = .singleton o.name doc := by
  obtain ⟨a, w, s', p', hs, hp', hresult, hserver⟩ := exec_of_runs store s (runs_run c) rfl hns
    (hasNames_of_call hns hnamespace hname .list nofun) trivial (hobjects ▸ .singleton h.stands)
  rw [hobjects] at hs
  obtain ⟨hobjects', hlisted⟩ := next_listing h hs
  obtain ⟨-, y, hy, hstage⟩ := hlisted.resolve_left fun hm => hm.1 rfl
  rw [hstage] at hp'
  rw [hresult, hserver]
  exact exec_loadingCanonical hobjects' hns hnamespace hname h hy hp'

/-- a run that is served completes the migration of a stored object, or finds it complete -/
theorem completes (h : o.Holds x doc) :
    (x ≠ .migrated ∧ Migrates store s o (run c)) ∨
      x = .migrated ∧ ((run c).exec store.serve s).result.result = .ok .upToDate ∧
        store.objects ((run c).exec store.serve s).server = .singleton o.name doc := by
  by_cases hx : x = .migrated
  · subst hx
    exact Or.inr ⟨rfl, exec_upToDate hobjects hns hnamespace hname h⟩
  · exact Or.inl ⟨hx, (arrives hobjects hns hnamespace hname h hx).migrates hns hnamespace hname⟩

end

end

end MigrationOperator.Pipeline
