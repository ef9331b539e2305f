/-
A migration takes the request for it back, so of any number of sources only one gets through.

`call` is one migration in place: whether it took place, and the resource afterwards. `after` is the resource after a list
of sources, one call each. What a call can do is `call_cases`: nothing, or the migration of an installed source into a
resource that asks for one, which then asks no more. By induction over the sources:
- `after_eq_self`: a resource that does not ask for a migration, or whose sources are not installed, stays as it is;
- `forceMigration_after`: it asks for one as long as it did from the start and no source was installed.
`migrated_once` puts them together: the first installed source gets through, the resource is then the migration of that
source alone, and no other call changes it.
-/
import MigrationOperator.Migration

namespace MigrationOperator.Migration

/-! ## One call -/

/-- a migration in place: whether it took place, and the resource afterwards -/
def call (c : CanonicalResource) (l : LegacyResource) : Bool × CanonicalResource :=
  match migrate? l c with
  | some y => (true, y)
  | none => (false, c)

/-- the call goes through exactly for an installed source and a resource that asks for it -/
theorem call_fst_iff (c : CanonicalResource) (l : LegacyResource) :
    (call c l).1 = true ↔ l.phase = .installed ∧ c.spec.forceMigration = true := by
  unfold call migrate?
  by_cases h : isEligible l c = true
  · rw [if_pos h]
    simpa [isEligible] using h
  · rw [if_neg h]
    simpa [isEligible] using h

theorem call_cases (c : CanonicalResource) (l : LegacyResource) :
    ((call c l).1 = false ∧ (call c l).2 = c) ∨
      (c.spec.forceMigration = true ∧ (call c l).1 = true ∧ migrate? l c = some (call c l).2 ∧
        (call c l).2.spec.forceMigration = false) := by
  cases h : (call c l).1 with
  | false =>
    left
    refine ⟨rfl, ?_⟩
    unfold call at h ⊢
    split
    · simp_all
    · rfl
  | true =>
    obtain ⟨hphase, hforce⟩ := (call_fst_iff c l).1 h
    have heligible : isEligible l c = true := by simp [isEligible, hphase, hforce]
    have hmigrate : migrate? l c = some (apply l c) := if_pos heligible
    have hcall : call c l = (true, apply l c) := by simp [call, hmigrate]
    right
    exact ⟨hforce, rfl, by rw [hcall, hmigrate], by rw [hcall]; rfl⟩

theorem call_snd_of_refused {c : CanonicalResource} {l : LegacyResource} (h : (call c l).1 = false) : (call c l).2 = c := by
  rcases call_cases c l with ⟨-, hsame⟩ | ⟨-, htrue, -, -⟩
  · exact hsame
  · rw [h] at htrue
    cases htrue

/-! ## One call after another -/

/-- the resource after a call for each source -/
def after (c : CanonicalResource) (ls : List LegacyResource) : CanonicalResource := ls.foldl (fun c l => (call c l).2) c

/-- what the call for the source at this place returns -/
def returns (c : CanonicalResource) (ls : List LegacyResource) (i : Nat) : Bool :=
  match ls[i]? with
  | some l => (call (after c (ls.take i)) l).1
  | none => false

theorem after_append (c : CanonicalResource) (ls ls' : List LegacyResource) :
    after c (ls ++ ls') = after (after c ls) ls' := by
  simp [after, List.foldl_append]

theorem after_cons (c : CanonicalResource) (l : LegacyResource) (ls : List LegacyResource) :
    after c (l :: ls) = after (call c l).2 ls := rfl

/-- calls that do not go through change nothing -/
theorem after_eq_self {c : CanonicalResource} {ls : List LegacyResource}
    (h : ∀ l ∈ ls, ¬ (l.phase = .installed ∧ c.spec.forceMigration = true)) : after c ls = c := by
  induction ls with
  | nil => rfl
  | cons l ls ih =>
    obtain ⟨hl, hls⟩ := List.forall_mem_cons.1 h
    have hsame : (call c l).2 = c := by
      apply call_snd_of_refused
      rwa [← call_fst_iff, Bool.not_eq_true] at hl
    rw [after_cons, hsame, ih hls]

/-- a resource that does not ask for a migration stays as it is -/
theorem after_of_settled {c : CanonicalResource} (h : c.spec.forceMigration = false) (ls : List LegacyResource) :
    after c ls = c := by
  apply after_eq_self
  rintro l - ⟨-, hforce⟩
  rw [h] at hforce
  cases hforce

/-- and so does one whose sources are not installed -/
theorem after_of_uninstalled {ls : List LegacyResource} (h : ∀ l ∈ ls, l.phase ≠ .installed) (c : CanonicalResource) :
    after c ls = c :=
  after_eq_self fun l hl hcall => h l hl hcall.1

/-- a resource asks for a migration as long as it did from the start and no source was installed -/
theorem forceMigration_after (c : CanonicalResource) (ls : List LegacyResource) :
    (after c ls).spec.forceMigration = true ↔ c.spec.forceMigration = true ∧ ∀ l ∈ ls, l.phase ≠ .installed := by
  induction ls generalizing c with
  | nil => simp [after]
  | cons l ls ih =>
    rw [after_cons, ih, List.forall_mem_cons]
    rcases call_cases c l with ⟨hfalse, hsame⟩ | ⟨hforce, htrue, -, hsettled⟩
    · have hnot : ¬ (l.phase = .installed ∧ c.spec.forceMigration = true) := by
        rw [← call_fst_iff, hfalse]
        exact Bool.false_ne_true
      rw [hsame]
      constructor
      · rintro ⟨hforce, hls⟩
        exact ⟨hforce, fun hphase => hnot ⟨hphase, hforce⟩, hls⟩
      · rintro ⟨hforce, -, hls⟩
        exact ⟨hforce, hls⟩
    · have hphase : l.phase = .installed := ((call_fst_iff c l).1 htrue).1
      simp [hsettled, hphase]

/-! ## The call that goes through -/

variable {c : CanonicalResource} {ls : List LegacyResource} {i : Nat}

/-- the source at this place is the first one that is installed -/
def FirstInstalled (ls : List LegacyResource) (i : Nat) : Prop :=
  ∃ l, ls[i]? = some l ∧ l.phase = .installed ∧ ∀ l' ∈ ls.take i, l'.phase ≠ .installed

theorem returns_iff : returns c ls i = true ↔ c.spec.forceMigration = true ∧ FirstInstalled ls i := by
  unfold returns FirstInstalled
  cases ls[i]? with
  | none => simp
  | some l =>
    simp only [call_fst_iff, forceMigration_after, Option.some.injEq, exists_eq_left']
    constructor
    · rintro ⟨hphase, hforce, hbefore⟩
      exact ⟨hforce, hphase, hbefore⟩
    · rintro ⟨hforce, hphase, hbefore⟩
      exact ⟨hphase, hforce, hbefore⟩

theorem FirstInstalled.le {j : Nat} (hi : FirstInstalled ls i) (hj : FirstInstalled ls j) : i ≤ j := by
  obtain ⟨-, -, -, hbefore⟩ := hi
  obtain ⟨l, hl, hphase, -⟩ := hj
  apply Nat.le_of_not_lt
  intro hlt
  have hget : (ls.take i)[j]? = some l := by rw [List.getElem?_take_of_lt hlt, hl]
  exact hbefore l (List.mem_of_getElem? hget) hphase

theorem exists_firstInstalled {l : LegacyResource} (hl : l ∈ ls) (hphase : l.phase = .installed) :
    ∃ i, FirstInstalled ls i := by
  have hsome : (ls.find? (·.phase = .installed)).isSome := List.find?_isSome.2 ⟨l, hl, by simpa using hphase⟩
  obtain ⟨l', hfind⟩ := Option.isSome_iff_exists.1 hsome
  obtain ⟨hphase', pre, post, rfl, hpre⟩ := List.find?_eq_some_iff_append.1 hfind
  refine ⟨pre.length, l', by simp, by simpa using hphase', ?_⟩
  rw [List.take_left]
  simpa using hpre

/-- the resource before the call that goes through, after it, and in the end -/
theorem after_of_returns (h : returns c ls i = true) :
    ∃ l, ls[i]? = some l ∧ migrate? l c = some (after c ls) ∧
      ∀ k, after c (ls.take k) = if k ≤ i then c else after c ls := by
  obtain ⟨-, l, hl, -, hbefore⟩ := returns_iff.1 h
  obtain ⟨hi, rfl⟩ := List.getElem?_eq_some_iff.1 hl
  have hcall : (call c ls[i]).1 = true := by
    unfold returns at h
    rwa [hl, after_of_uninstalled hbefore] at h
  rcases call_cases c ls[i] with ⟨hfalse, -⟩ | ⟨-, -, hmigrate, hsettled⟩
  · rw [hfalse] at hcall
    cases hcall
  -- the calls from this one on: the migration, and then nothing
  have hfrom : ∀ k, i < k → after c (ls.take k) = (call c ls[i]).2 := by
    intro k hk
    have hsplit : ls.take k = ls.take i ++ ls[i] :: (ls.take k).drop (i + 1) := by
      have htake : (ls.take k).take i = ls.take i := by rw [List.take_take, Nat.min_eq_left (Nat.le_of_lt hk)]
      have hdrop : (ls.take k).drop i = ls[i] :: (ls.take k).drop (i + 1) := by
        rw [List.drop_eq_getElem_cons (by simp; omega), List.getElem_take]
      rw [← hdrop, ← htake, List.take_append_drop]
    rw [hsplit, after_append, after_of_uninstalled hbefore, after_cons, after_of_settled hsettled]
  have hend : after c ls = (call c ls[i]).2 := by
    have hall := hfrom ls.length hi
    rwa [List.take_length] at hall
  refine ⟨ls[i], hl, by rw [hend, hmigrate], fun k => ?_⟩
  split
  · rename_i hk
    apply after_of_uninstalled
    intro l' hl'
    apply hbefore l'
    rw [← Nat.min_eq_left hk, ← List.take_take] at hl'
    exact List.mem_of_mem_take hl'
  · rename_i hk
    rw [hend, hfrom k (by omega)]

/-- **Of any sequence of sources one gets through.** A call returns true exactly when the resource asked for a migration
at the start and the source is the first installed one; so at most one does. The resource in the end is the migration of
that source into the resource at the start, which it is up to that call, and from that call on nothing changes. When no
call returns true, none changes anything. In the end the resource asks for no migration exactly when it did not at the
start, or a call returned true. -/
theorem migrated_once (c : CanonicalResource) (ls : List LegacyResource) :
    (∀ i, returns c ls i = true ↔ c.spec.forceMigration = true ∧ FirstInstalled ls i) ∧
      (∀ i j, returns c ls i = true → returns c ls j = true → i = j) ∧
      (∀ i, returns c ls i = true → ∃ l, ls[i]? = some l ∧ migrate? l c = some (after c ls) ∧
        (∀ k, k ≤ i → after c (ls.take k) = c) ∧ ∀ k, i < k → after c (ls.take k) = after c ls) ∧
      ((∀ i, returns c ls i = false) → ∀ k, after c (ls.take k) = c) ∧
      ((after c ls).spec.forceMigration = false ↔ c.spec.forceMigration = false ∨ ∃ i, returns c ls i = true) := by
  refine ⟨fun i => returns_iff, fun i j hi hj => ?_, fun i hi => ?_, fun h => ?_, ?_⟩
  · have hi := (returns_iff.1 hi).2
    have hj := (returns_iff.1 hj).2
    exact Nat.le_antisymm (hi.le hj) (hj.le hi)
  · obtain ⟨l, hl, hmigrate, hafter⟩ := after_of_returns hi
    refine ⟨l, hl, hmigrate, fun k hk => ?_, fun k hk => ?_⟩
    · rw [hafter, if_pos hk]
    · rw [hafter, if_neg (by omega)]
  · intro k
    cases hforce : c.spec.forceMigration with
    | false => exact after_of_settled hforce _
    | true =>
      apply after_of_uninstalled
      intro l hl hphase
      obtain ⟨i, hi⟩ := exists_firstInstalled (List.mem_of_mem_take hl) hphase
      have htrue := returns_iff.2 ⟨hforce, hi⟩
      rw [h] at htrue
      cases htrue
  · rw [← Bool.not_eq_true, forceMigration_after, ← Bool.not_eq_true]
    constructor
    · intro hnot
      by_cases hforce : c.spec.forceMigration = true
      · right
        apply Classical.byContradiction
        intro hnone
        apply hnot
        refine ⟨hforce, fun l hl hphase => hnone ?_⟩
        obtain ⟨i, hi⟩ := exists_firstInstalled hl hphase
        exact ⟨i, returns_iff.2 ⟨hforce, hi⟩⟩
      · exact Or.inl hforce
    · rintro (hforce | ⟨i, hi⟩) ⟨hstart, hall⟩
      · exact hforce hstart
      · obtain ⟨-, l, hl, hphase, -⟩ := returns_iff.1 hi
        exact hall l (List.mem_of_getElem? hl) hphase

/-- a source in this phase that names this host -/
def source (phase : Phase) (hostname : String) : LegacyResource where
  metadata := {}
  spec := { routeHostname := hostname }
  status := some { phase }

/-- a resource that asks for a migration -/
def asking : CanonicalResource := ⟨{}, { forceMigration := true }, none⟩

/-- the second of three sources gets through: the first one is not installed, and the third one comes too late -/
example :
    let ls := [source .installing "first", source .installed "second", source .installed "third"]
    (List.range 3).map (returns asking ls) = [false, true, false] ∧ (after asking ls).spec.routeHostname = "second" := by
  decide

end MigrationOperator.Migration
