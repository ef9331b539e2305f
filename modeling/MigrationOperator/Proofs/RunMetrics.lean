/-
What the metrics tell of the runs of the pipeline.

The metrics of a process are those of its runs, one after another (`Metrics.ofRuns`). A run comes to one of five
conclusions, each with a counter of its own, and what it counted is read off its conversation alone (`Counts`): the
objects of each schema in the list that it begins with, provided that every one of them was classified.

Results:
- `metrics_account`: every counter is the number of runs that ended that way, together they are the number of runs, and the
  two gauges of a namespace are what the latest run there counted that counted anything.
The gauges of different namespaces never get in each other's way: series are told apart by their joined labels, and no
namespace followed by one version reads as another one followed by the other (`joined_injective`).
-/
import Mathlib.Algebra.Ring.Nat
import MigrationOperator.Metrics
import MigrationOperator.Proofs.Api.Failure
import MigrationOperator.Proofs.DecisionTable

namespace MigrationOperator

/-! ## Conclusions -/

namespace Pipeline

/-- how a run may end -/
inductive Conclusion where
  | noResource
  | upToDate
  | notEligible
  | migrated
  | error
deriving DecidableEq

def Conclusion.label : Conclusion → String
  | .noResource => "no_resource"
  | .upToDate => "up_to_date"
  | .notEligible => "not_eligible"
  | .migrated => "migrated"
  | .error => "error"

theorem Conclusion.label_injective {x y : Conclusion} (h : x.label = y.label) : x = y := by
  revert h
  cases x <;> cases y <;> decide

def Report.conclusion (rep : Report Outcome) : Conclusion :=
  match rep.result with
  | .ok .noResource => .noResource
  | .ok .upToDate => .upToDate
  | .ok .notEligible => .notEligible
  | .ok (.migrated _) => .migrated
  | .error _ => .error

end Pipeline

/-- a number put under a key takes the place of the one that was there -/
theorem Entries.sum_insert (k : String) (n : Nat) {es : List (String × Nat)} (h : Ordered es) :
    ((insert k n es).map Prod.snd).sum + (find? k es).getD 0 = (es.map Prod.snd).sum + n := by
  induction es with
  | nil => simp [insert, find?]
  | cons e es ih =>
    obtain ⟨he, hes⟩ := List.pairwise_cons.1 h
    rw [insert]
    split_ifs with hlt heq
    · have hnone : find? k (e :: es) = none := by
        refine find?_of_forall_lt fun f hf => ?_
        rcases List.mem_cons.1 hf with rfl | hf
        · exact hlt
        · exact String.lt_trans hlt (he f hf)
      simp only [hnone, List.map_cons, List.sum_cons, Option.getD_none]
      omega
    · simp only [find?, if_pos heq, List.map_cons, List.sum_cons, Option.getD_some]
      omega
    · have hrest := ih hes
      simp only [find?, if_neg heq, List.map_cons, List.sum_cons]
      omega

namespace Metrics

open Pipeline

/-- a run is counted under its conclusion -/
theorem migrations_recordRun (m : Metrics) (ns : String) (rep : Report Outcome) :
    (m.recordRun ns rep).migrations = bump m.migrations rep.conclusion.label := by
  obtain ⟨census, result⟩ := rep
  cases census <;> rcases result with e | (_ | _ | _ | x) <;> rfl

/-- one more run is one more in all -/
theorem sum_values_bump (counts : StringMap Nat) (label : String) :
    (bump counts label).values.sum = counts.values.sum + 1 := by
  have hinsert := Entries.sum_insert label (countOf counts label + 1) counts.ordered
  change ((bump counts label).entries.map Prod.snd).sum + countOf counts label =
    (counts.entries.map Prod.snd).sum + (countOf counts label + 1) at hinsert
  show ((bump counts label).entries.map Prod.snd).sum = (counts.entries.map Prod.snd).sum + 1
  omega

/-! ## Gauges -/

/-- the value of a gauge -/
def gauge (m : Metrics) (ns version : String) : Option Int := (m.instances.get? ns).bind (·.get? version)

theorem gauge_of_mem_gauges {m : Metrics} {g : String × String} (h : g ∈ m.gauges) : (m.gauge g.1 g.2).isSome = true := by
  obtain ⟨e, he, h⟩ := List.mem_flatMap.1 h
  obtain ⟨v, hv, rfl⟩ := List.mem_map.1 h
  have hinner : m.instances.get? e.1 = some e.2 := Entries.find?_of_mem_of_ordered m.instances.ordered he
  have hvalue : e.2.get? v.1 = some v.2 := Entries.find?_of_mem_of_ordered e.2.ordered hv
  simp [gauge, hinner, hvalue]

/-- gauges are kept for the two versions only -/
def Versioned (m : Metrics) : Prop :=
  ∀ ns version, (m.gauge ns version).isSome = true → ∃ v : SchemaVersion, version = v.apiVersion

/-- a namespace and a version can be told from their joined text -/
theorem joined_injective {ns ns' : String} {v v' : SchemaVersion} (h : ns ++ v.apiVersion = ns' ++ v'.apiVersion) :
    ns = ns' ∧ v = v' := by
  have hlists : ns.toList ++ v.apiVersion.toList = ns'.toList ++ v'.apiVersion.toList := by
    rw [← String.toList_append, ← String.toList_append, h]
  have hends : v = v' := by
    -- the third character from the end tells the versions apart
    have hlength : ∀ v : SchemaVersion, 3 ≤ v.apiVersion.toList.reverse.length := by
      intro v
      cases v <;> decide
    have hreverse := congrArg (fun cs => cs.reverse.take 3) hlists
    simp only [List.reverse_append, List.take_append_of_le_length (hlength _)] at hreverse
    cases v <;> cases v' <;> first | rfl | exact absurd hreverse (by decide)
  subst hends
  exact ⟨String.toList_inj.1 (List.append_cancel_right hlists), rfl⟩

section

variable {m : Metrics} {ns ns' version : String} {v : SchemaVersion}

/-- so a gauge is found under its own labels -/
theorem gaugeOf_eq (h : m.Versioned) (ns : String) (v : SchemaVersion) :
    m.gaugeOf ns v.apiVersion = (ns, v.apiVersion) := by
  rw [gaugeOf]
  cases hfind : m.gauges.find? fun g => g.1 ++ g.2 = ns ++ v.apiVersion with
  | none => rfl
  | some g =>
    obtain ⟨ns', version⟩ := g
    obtain ⟨v', rfl⟩ := h ns' version (gauge_of_mem_gauges (List.mem_of_find?_eq_some hfind))
    have hjoined := List.find?_some hfind
    obtain ⟨rfl, rfl⟩ := joined_injective (of_decide_eq_true hjoined)
    rfl

theorem gauge_setInstances (h : m.Versioned) (n : Int) : (m.setInstances ns v.apiVersion n).gauge ns' version =
    if ns' = ns ∧ version = v.apiVersion then some n else m.gauge ns' version := by
  have hset : (m.setInstances ns v.apiVersion n).instances =
      m.instances.insert ns (((m.instances.get? ns).getD .empty).insert v.apiVersion n) := by
    rw [setInstances, gaugeOf_eq h]
  rw [gauge, hset, StringMap.get?_insert]
  by_cases hns : ns' = ns
  · subst hns
    rw [if_pos rfl, Option.bind_some, StringMap.get?_insert]
    by_cases hversion : version = v.apiVersion
    · rw [if_pos hversion, if_pos ⟨rfl, hversion⟩]
    · rw [if_neg hversion, if_neg fun h => hversion h.2, gauge]
      cases m.instances.get? ns' <;> rfl
  · rw [if_neg hns, if_neg fun h => hns h.1, gauge]

theorem Versioned.setInstances (h : m.Versioned) (ns : String) (v : SchemaVersion) (n : Int) :
    (m.setInstances ns v.apiVersion n).Versioned := by
  intro ns' version hsome
  rw [gauge_setInstances h] at hsome
  by_cases hset : ns' = ns ∧ version = v.apiVersion
  · exact ⟨v, hset.2⟩
  · rw [if_neg hset] at hsome
    exact h ns' version hsome

theorem Versioned.setCensus (h : m.Versioned) (ns : String) (census : Census) : (m.setCensus ns census).Versioned :=
  (h.setInstances ns .legacy census.legacy).setInstances ns .canonical census.canonical

theorem gauge_setCensus (h : m.Versioned) (ns : String) (census : Census) :
    (m.setCensus ns census).gauge ns SchemaVersion.legacy.apiVersion = some (census.legacy : Int) ∧
      (m.setCensus ns census).gauge ns SchemaVersion.canonical.apiVersion = some (census.canonical : Int) ∧
        ∀ ns' ≠ ns, ∀ version, (m.setCensus ns census).gauge ns' version = m.gauge ns' version := by
  have hlegacy := h.setInstances ns .legacy census.legacy
  have hne : SchemaVersion.legacy.apiVersion ≠ SchemaVersion.canonical.apiVersion := by decide
  refine ⟨?_, ?_, fun ns' hns' version => ?_⟩
  · rw [Metrics.setCensus, gauge_setInstances hlegacy, if_neg fun h => hne h.2, gauge_setInstances h, if_pos ⟨rfl, rfl⟩]
  · rw [Metrics.setCensus, gauge_setInstances hlegacy, if_pos ⟨rfl, rfl⟩]
  · rw [Metrics.setCensus, gauge_setInstances hlegacy, if_neg fun h => hns' h.1, gauge_setInstances h,
      if_neg fun h => hns' h.1]

end

end Metrics

/-! ## What a run counts -/

namespace Pipeline

/-- the conversation begins with a list, every object of which is classified; a kind that is not there has none -/
inductive Counts : List Exchange → Census → Prop where
  | listed {r : Request} {a : Answer} {rest : List Exchange} {list : ObjectList} {ks : List Classified}
    (hlist : Action.decode ObjectList.codec a = .ok list) (hks : list.items.map classify = ks.map .ok) :
    Counts (⟨r, a⟩ :: rest) ⟨count .legacy ks, count .canonical ks⟩
  | absent {r : Request} {a : Answer} {rest : List Exchange} (h : a.Absent) : Counts (⟨r, a⟩ :: rest) ⟨0, 0⟩

variable {c : Context} {s : Stage} {es : List Exchange} {rep : Report Outcome} {census : Census}

namespace Stage

/-- the run is past the listing and has counted this -/
def Past (s : Stage) (census : Option Census) : Prop := s ≠ .listing ∧ s.census = census

theorem past_finished (rep : Report Outcome) : (finished rep).Past rep.census := ⟨nofun, rfl⟩

theorem past_missed (h : s.census = some census) (e : OperatorError) : (s.missed census e).Past s.census := by
  rw [missed]
  split
  · exact ⟨Stage.noConfusion, h.symm⟩
  · exact past_finished _

theorem past_afterListing (ks : List Classified) :
    (afterListing (.ok ks)).Past (some ⟨count .legacy ks, count .canonical ks⟩) := by
  match ks with
  | [] => exact past_finished _
  | [.legacy x] => exact ⟨nofun, rfl⟩
  | [.canonical x] => exact ⟨nofun, rfl⟩
  | x :: y :: ks =>
    rw [afterListing_eq_tooMany (Nat.le_add_left 2 _), of_ofList]
    exact past_finished _

/-- what was counted stays counted -/
theorem past_next (hs : s ≠ .listing) (a : Answer) : (s.next a).Past s.census := by
  cases s with
  | listing => exact absurd rfl hs
  | loadingLegacy x =>
    rw [next]
    cases Action.decode Legacy.kind.codec a with
    | error e => exact past_missed rfl e
    | ok l =>
      dsimp only [afterLoading]
      split_ifs <;> exact ⟨Stage.noConfusion, rfl⟩
  | loadingCanonical x =>
    rw [next]
    cases Action.decode Canonical.kind.codec a with
    | ok y => exact past_finished _
    | error e => exact past_missed rfl e
  | patching l =>
    rw [next]
    cases Action.decode Opaque.codec a with
    | ok patched => exact ⟨Stage.noConfusion, rfl⟩
    | error e => exact past_finished _
  | replacing l revision =>
    rw [next]
    cases Action.decode Canonical.kind.codec a with
    | ok y => exact past_finished _
    | error e => exact past_finished _
  | creating l =>
    rw [next]
    cases Action.decode Canonical.kind.codec a with
    | ok created => exact ⟨Stage.noConfusion, rfl⟩
    | error e => exact past_finished _
  | describing l created =>
    rw [next]
    cases Action.decode Opaque.codec a with
    | error e => exact past_finished _
    | ok patched =>
      dsimp only
      cases Canonical.kind.codec.decode patched.write with
      | ok y => exact past_finished _
      | error e => exact past_finished _
  | finished rep => exact past_finished rep

end Stage

/-- so it is what the run reports, however it goes on -/
theorem Ends.census_eq (h : Ends c s es rep) (hs : s ≠ .listing) : rep.census = s.census := by
  induction es generalizing s with
  | nil =>
    obtain ⟨p, hruns, hreach⟩ := h
    obtain rfl := hreach.eq_of_nil
    cases hruns with
    | finished => rfl
    | blocked => rfl
  | cons e es ih =>
    obtain ⟨hne, hcensus⟩ := s.past_next hs e.answer
    exact (ih h.of_cons.2 hne).trans hcensus

theorem map_classify_of_classifyAll {ds : List Opaque} {ks : List Classified} (h : Candidates.classifyAll ds = .ok ks) :
    ds.map classify = ks.map .ok := by
  induction ds generalizing ks with
  | nil =>
    obtain rfl := Except.ok.inj h
    rfl
  | cons d ds ih =>
    obtain ⟨k, ks, hd, hds, rfl⟩ := classifyAll_cons_eq_ok_iff.1 h
    rw [List.map_cons, List.map_cons, hd, ih hds]

/-- what is counted of an answer with a list -/
theorem counts_iff_of_decode {r : Request} {a : Answer} {list : ObjectList}
    (hlist : Action.decode ObjectList.codec a = .ok list) : Counts (⟨r, a⟩ :: es) census ↔
      ∃ ks, Candidates.classifyAll list.items = .ok ks ∧ census = ⟨count .legacy ks, count .canonical ks⟩ := by
  constructor
  · intro h
    cases h with
    | listed hlist' hks =>
      obtain rfl := Except.ok.inj (hlist.symm.trans hlist')
      exact ⟨_, classifyAll_eq_ok hks, rfl⟩
    | absent habsent =>
      obtain ⟨e, he, -⟩ := habsent.exists_decode_eq ObjectList.codec
      exact absurd (hlist.symm.trans he) nofun
  · rintro ⟨ks, hks, rfl⟩
    exact .listed hlist (map_classify_of_classifyAll hks)

/-- and of one without -/
theorem counts_iff_of_error {r : Request} {a : Answer} {e : OperatorError}
    (he : Action.decode ObjectList.codec a = .error e) :
    Counts (⟨r, a⟩ :: es) census ↔ e.isNotFound = true ∧ census = ⟨0, 0⟩ := by
  rw [(Answer.fails_iff.2 he).isNotFound_iff]
  constructor
  · intro h
    cases h with
    | listed hlist hks => exact absurd (he.symm.trans hlist) nofun
    | absent habsent => exact ⟨habsent, rfl⟩
  · rintro ⟨habsent, rfl⟩
    exact .absent habsent

/-- **A run reports what its conversation counts.** -/
theorem Ends.census_eq_some_iff (h : Ends c .listing es rep) : rep.census = some census ↔ Counts es census := by
  rcases es with _ | ⟨⟨r, a⟩, es⟩
  · -- the listing could not be sent
    obtain ⟨p, hruns, hreach⟩ := h
    obtain rfl := hreach.eq_of_nil
    cases hruns with
    | blocked => exact ⟨nofun, nofun⟩
  · have hrest := h.of_cons.2
    rw [Stage.next] at hrest
    dsimp only at hrest
    cases hlist : Action.decode ObjectList.codec a with
    | ok list =>
      rw [hlist] at hrest
      dsimp only at hrest
      rw [counts_iff_of_decode hlist]
      cases hks : Candidates.classifyAll list.items with
      | ok ks =>
        rw [hks] at hrest
        obtain ⟨hne, hcensus⟩ := Stage.past_afterListing ks
        rw [hrest.census_eq hne, hcensus]
        simp only [Option.some.injEq, Except.ok.injEq, exists_eq_left', eq_comm]
      | error u =>
        rw [hks] at hrest
        obtain ⟨-, rfl⟩ := hrest.of_finished
        simp only [reduceCtorEq, false_and, exists_false]
    | error e =>
      rw [hlist] at hrest
      dsimp only at hrest
      rw [counts_iff_of_error hlist]
      rw [Stage.missed] at hrest
      split_ifs at hrest with hnotFound
      · obtain ⟨-, rfl⟩ := hrest.of_finished
        simp only [Option.some.injEq, hnotFound, true_and, eq_comm]
      · obtain ⟨-, rfl⟩ := hrest.of_finished
        simp only [Stage.census, hnotFound, reduceCtorEq, false_and, Bool.false_eq_true]

end Pipeline

/-! ## Every run of a process -/

/-- a run of the pipeline that came to its end, whatever the cluster answered -/
structure FinishedRun where
  context : Context
  conversation : List Exchange
  report : Pipeline.Report Pipeline.Outcome
  reaches : (Pipeline.run context).Reaches conversation (.done report)

namespace FinishedRun

variable (run : FinishedRun)

def namespaceName : String := run.context.namespaceName

/-- the run against a server -/
def against {σ : Type} (serve : σ → Request → Answer × σ) (c : Context) (s : σ) : FinishedRun where
  context := c
  conversation := (Pipeline.run c).conversation serve s
  report := ((Pipeline.run c).exec serve s).result
  reaches := Program.reaches_conversation serve (Pipeline.run c) s

def Counts (census : Pipeline.Census) : Prop := Pipeline.Counts run.conversation census

theorem census_eq_some_iff {census : Pipeline.Census} : run.report.census = some census ↔ run.Counts census :=
  Pipeline.Ends.census_eq_some_iff ⟨_, Pipeline.runs_run run.context, run.reaches⟩

end FinishedRun

namespace Metrics

open Pipeline

/-- the metrics of a process after these runs -/
def ofRuns (runs : List FinishedRun) : Metrics :=
  runs.foldl (fun m run => m.recordRun run.namespaceName run.report) .empty

variable {runs : List FinishedRun} {run : FinishedRun} {census : Census}

@[simp] theorem ofRuns_nil : ofRuns [] = .empty := rfl

@[simp] theorem ofRuns_concat (runs : List FinishedRun) (run : FinishedRun) :
    ofRuns (runs ++ [run]) = (ofRuns runs).recordRun run.namespaceName run.report := by
  simp [ofRuns, List.foldl_append]

/-- the gauges after one more run -/
theorem instances_concat_of_not_counts (h : ∀ census, ¬ run.Counts census) :
    (ofRuns (runs ++ [run])).instances = (ofRuns runs).instances := by
  rw [ofRuns_concat, recordRun]
  cases hcensus : run.report.census with
  | none => rfl
  | some census => exact absurd (run.census_eq_some_iff.1 hcensus) (h census)

theorem instances_concat_of_counts (h : run.Counts census) :
    (ofRuns (runs ++ [run])).instances = ((ofRuns runs).setCensus run.namespaceName census).instances := by
  rw [ofRuns_concat, recordRun, run.census_eq_some_iff.2 h]
  rfl

theorem gauge_congr {m m' : Metrics} (h : m.instances = m'.instances) (ns version : String) :
    m.gauge ns version = m'.gauge ns version := by
  rw [gauge, gauge, h]

theorem versioned_ofRuns (runs : List FinishedRun) : (ofRuns runs).Versioned := by
  induction runs using List.reverseRecOn with
  | nil => exact fun _ _ h => absurd h nofun
  | append_singleton runs run ih =>
    intro ns version hsome
    by_cases hcounts : ∃ census, run.Counts census
    · obtain ⟨census, hcensus⟩ := hcounts
      rw [gauge_congr (instances_concat_of_counts hcensus)] at hsome
      exact ih.setCensus _ census ns version hsome
    · rw [gauge_congr (instances_concat_of_not_counts (not_exists.1 hcounts))] at hsome
      exact ih ns version hsome

/-- runs that count nothing in a namespace leave its gauges as they are -/
theorem gauge_append {ns : String} {before after : List FinishedRun}
    (h : ∀ run ∈ after, run.namespaceName = ns → ∀ census, ¬ run.Counts census) (version : String) :
    (ofRuns (before ++ after)).gauge ns version = (ofRuns before).gauge ns version := by
  induction after using List.reverseRecOn with
  | nil => rw [List.append_nil]
  | append_singleton after run ih =>
    have hrest := ih fun later hlater => h later (List.mem_append_left _ hlater)
    rw [← List.append_assoc]
    by_cases hcounts : ∃ census, run.Counts census
    · obtain ⟨census, hcensus⟩ := hcounts
      have hne : ns ≠ run.namespaceName := fun heq =>
        h run (List.mem_append_right _ (List.mem_singleton_self run)) heq.symm census hcensus
      rw [gauge_congr (instances_concat_of_counts hcensus),
        (gauge_setCensus (versioned_ofRuns _) _ census).2.2 ns hne, hrest]
    · rw [gauge_congr (instances_concat_of_not_counts (not_exists.1 hcounts)), hrest]

/-- each conclusion has a counter of its own -/
theorem countOf_ofRuns (runs : List FinishedRun) (e : Conclusion) :
    countOf (ofRuns runs).migrations e.label = runs.countP (·.report.conclusion = e) := by
  induction runs using List.reverseRecOn with
  | nil => rfl
  | append_singleton runs run ih =>
    rw [ofRuns_concat, migrations_recordRun, countOf_bump, ih, List.countP_append, List.countP_singleton]
    refine congrArg _ (if_congr ?_ rfl rfl)
    exact ⟨fun h => decide_eq_true (Conclusion.label_injective h).symm, fun h => congrArg _ (of_decide_eq_true h).symm⟩

/-- and there are no others -/
theorem get?_migrations_ofRuns {label : String} (h : ∀ e : Conclusion, label ≠ e.label) (runs : List FinishedRun) :
    (ofRuns runs).migrations.get? label = none := by
  induction runs using List.reverseRecOn with
  | nil => rfl
  | append_singleton runs run ih =>
    rw [ofRuns_concat, migrations_recordRun, bump, StringMap.get?_insert, if_neg (h _), ih]

theorem sum_values_ofRuns (runs : List FinishedRun) : (ofRuns runs).migrations.values.sum = runs.length := by
  induction runs using List.reverseRecOn with
  | nil => rfl
  | append_singleton runs run ih =>
    rw [ofRuns_concat, migrations_recordRun, sum_values_bump, ih, List.length_append, List.length_singleton]

/-- **The metrics account for every run** of a process. -/
theorem metrics_account (runs : List FinishedRun) :
    (∀ e : Conclusion, countOf (ofRuns runs).migrations e.label = runs.countP (·.report.conclusion = e)) ∧
      (∀ label, (∀ e : Conclusion, label ≠ e.label) → (ofRuns runs).migrations.get? label = none) ∧
      (ofRuns runs).migrations.values.sum = runs.length ∧
      (∀ ns, (∀ run ∈ runs, run.namespaceName = ns → ∀ census, ¬ run.Counts census) →
        ∀ version, (ofRuns runs).gauge ns version = none) ∧
      (∀ before run after census, runs = before ++ run :: after → run.Counts census →
        (∀ later ∈ after, later.namespaceName = run.namespaceName → ∀ census', ¬ later.Counts census') →
        (ofRuns runs).gauge run.namespaceName SchemaVersion.legacy.apiVersion = some (census.legacy : Int) ∧
        (ofRuns runs).gauge run.namespaceName SchemaVersion.canonical.apiVersion = some (census.canonical : Int)) ∧
      ∀ run, (∀ census, ¬ run.Counts census) → (ofRuns (runs ++ [run])).instances = (ofRuns runs).instances := by
  refine ⟨countOf_ofRuns runs, fun label h => get?_migrations_ofRuns h runs, sum_values_ofRuns runs, fun ns h version => ?_,
    fun before run after census hsplit hcounts hafter => ?_, fun run h => instances_concat_of_not_counts h⟩
  · have hnone : (ofRuns ([] ++ runs)).gauge ns version = (ofRuns []).gauge ns version := gauge_append h version
    exact hnone
  · have hlatest : ∀ version, (ofRuns runs).gauge run.namespaceName version =
        ((ofRuns before).setCensus run.namespaceName census).gauge run.namespaceName version := by
      intro version
      rw [hsplit, List.append_cons, gauge_append hafter, gauge_congr (instances_concat_of_counts hcounts)]
    obtain ⟨hlegacy, hcanonical, -⟩ := gauge_setCensus (versioned_ofRuns before) run.namespaceName census
    exact ⟨(hlatest _).trans hlegacy, (hlatest _).trans hcanonical⟩

/-- a run that is refused leaves the gauges of the one before it -/
example :
    let empty : FinishedRun := .against (fun _ _ => (.ofJson 200 (.object [("items", .arr [])]), ())) ⟨"test", "", ""⟩ ()
    let refused : FinishedRun := .against (fun _ _ => (.failure 500 "InternalError" "", ())) ⟨"test", "", ""⟩ ()
    let m := ofRuns [empty, refused]
    m.gauge "test" "syndesis.io/v1beta1" = some 0 ∧ m.migrations.entries = [("error", 1), ("no_resource", 1)] := by
  decide +kernel

end Metrics

end MigrationOperator
