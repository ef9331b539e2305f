/-
What a migration writes, field by field, and what it leaves alone.

A migration writes twenty fields of a canonical spec besides the switches of addons. Each follows a source in the legacy
spec (`Follows`): it takes the value that the source gives, and stays as it was where the source gives none. The sources
are of four kinds, listed in `rules`: an optional value, a text that is not empty, a map that is not empty, and the memory
entry of a map of limits, which counts even when its text is empty.

- `enabled_addons`: a switch is on afterwards when it was on before or the parameters of its addon ask for it. The loop
  over the legacy addons is one step lemma (`enabled_copyAddon`) and an induction.
- `rest_spec`: everything that no rule names is as it was.
- `eq_of_rules`: the rules, the switches and the rest leave nothing open.
- `migrate_follows_rules`: for an eligible pair the migration succeeds, and its result is the one resource that obeys all
  of them.
-/
import MigrationOperator.Migration

namespace MigrationOperator

/-! ## Switches of addons -/

namespace Canonical

namespace Addon

theorem ofName?_name (a : Addon) : ofName? a.name = some a := by
  cases a <;> decide

theorem name_of_ofName? {s : String} {a : Addon} (h : ofName? s = some a) : a.name = s := by
  unfold ofName? at h
  split at h <;> cases h <;> rfl

theorem name_inj {a a' : Addon} (h : a.name = a'.name) : a = a' := by
  have h' := ofName?_name a
  rw [h, ofName?_name a'] at h'
  exact (Option.some.inj h').symm

end Addon

namespace Addons

/-- the addons with every switch off -/
def off (x : Addons) : Addons :=
  { x with
    jaeger.enabled := false
    ops.enabled := false
    todo.enabled := false
    knative.enabled := false
    dv.enabled := false
    camelk.enabled := false
    publicApi.enabled := false }

theorem off_setEnabled (a : Addon) (b : Bool) (x : Addons) : (x.setEnabled a b).off = x.off := by
  cases a <;> rfl

/-- addons are their switches and what is left when these are off -/
theorem ext_of_enabled {x y : Addons} (h : ∀ a, x.enabled a = y.enabled a) (hoff : x.off = y.off) : x = y := by
  have hjaeger := h .jaeger
  have hops := h .ops
  have htodo := h .todo
  have hknative := h .knative
  have hdv := h .dv
  have hcamelk := h .camelk
  have hpublicApi := h .publicApi
  obtain ⟨⟨⟩, ⟨⟩, ⟨⟩, ⟨⟩, ⟨⟩, ⟨⟩, ⟨⟩⟩ := x
  obtain ⟨⟨⟩, ⟨⟩, ⟨⟩, ⟨⟩, ⟨⟩, ⟨⟩, ⟨⟩⟩ := y
  simp_all [enabled, off]

end Addons

end Canonical

namespace Migration

/-- the legacy spec asks for this addon, with the exact text -/
def Asks (old : StringMap Legacy.AddonParameters) (a : Canonical.Addon) : Prop :=
  ∃ parameters, old.get? a.name = some parameters ∧ parameters.get? "enabled" = some "true"

/-- one entry switches its own addon on, if it asks for it, and no other -/
theorem enabled_copyAddon (x : Canonical.Addons) (name : String) (parameters : Legacy.AddonParameters)
    (a : Canonical.Addon) :
    (copyAddon x name parameters).enabled a = true ↔
      x.enabled a = true ∨ name = a.name ∧ asksFor parameters = true := by
  unfold copyAddon
  cases hname : Canonical.Addon.ofName? name with
  | none =>
    have hne : name ≠ a.name := by
      intro h
      rw [h, Canonical.Addon.ofName?_name] at hname
      cases hname
    simp [hne]
  | some a' =>
    obtain rfl := Canonical.Addon.name_of_ofName? hname
    by_cases hask : asksFor parameters = true
    · by_cases ha : a = a'
      · simp [hask, ha]
      · have hne : a'.name ≠ a.name := fun h => ha (Canonical.Addon.name_inj h).symm
        simp [hask, ha, hne]
    · simp [hask]

theorem off_copyAddon (x : Canonical.Addons) (name : String) (parameters : Legacy.AddonParameters) :
    (copyAddon x name parameters).off = x.off := by
  unfold copyAddon
  split
  · split
    · exact Canonical.Addons.off_setEnabled _ _ _
    · rfl
  · rfl

theorem enabled_foldl_copyAddon (es : List (String × Legacy.AddonParameters)) (x : Canonical.Addons)
    (a : Canonical.Addon) :
    (es.foldl (fun x e => copyAddon x e.1 e.2) x).enabled a = true ↔
      x.enabled a = true ∨ ∃ e ∈ es, e.1 = a.name ∧ asksFor e.2 = true := by
  induction es generalizing x with
  | nil => simp
  | cons e es ih =>
    rw [List.foldl_cons, ih, enabled_copyAddon]
    simp only [List.mem_cons, exists_eq_or_imp, or_assoc]

/-- **Switches.** A switch is on after a migration when it was on before, or when the parameters of its addon ask for it;
it is never turned off. -/
theorem enabled_addons (old : StringMap Legacy.AddonParameters) (x : Canonical.Addons) (a : Canonical.Addon) :
    (addons old x).enabled a = true ↔ x.enabled a = true ∨ Asks old a := by
  unfold addons
  rw [enabled_foldl_copyAddon]
  apply or_congr_right
  constructor
  · rintro ⟨⟨name, parameters⟩, he, rfl, hask⟩
    refine ⟨parameters, Entries.find?_of_mem_of_ordered old.ordered he, ?_⟩
    simpa [asksFor] using hask
  · rintro ⟨parameters, hget, hask⟩
    refine ⟨(a.name, parameters), Entries.mem_of_find? hget, rfl, ?_⟩
    simpa [asksFor] using hask

theorem off_addons (old : StringMap Legacy.AddonParameters) (x : Canonical.Addons) : (addons old x).off = x.off := by
  unfold addons
  induction old.entries generalizing x with
  | nil => rfl
  | cons e es ih => rw [List.foldl_cons, ih, off_copyAddon]

/-- entries under other names than those of the known addons have no effect -/
theorem addons_congr {old old' : StringMap Legacy.AddonParameters}
    (h : ∀ a : Canonical.Addon, old.get? a.name = old'.get? a.name) (x : Canonical.Addons) :
    addons old x = addons old' x := by
  apply Canonical.Addons.ext_of_enabled
  · intro a
    rw [Bool.eq_iff_iff, enabled_addons, enabled_addons, Asks, Asks, h]
  · rw [off_addons, off_addons]

/-! ## Rules for the other fields -/

/-- the new value is the one that the source gives, and the old one where it gives none -/
structure Follows {α : Type} (source : Option α) (old new : α) : Prop where
  taken : ∀ v, source = some v → new = v
  kept : source = none → new = old

theorem Follows.eq {α : Type} {source : Option α} {old new new' : α} (h : Follows source old new)
    (h' : Follows source old new') : new = new' := by
  cases source with
  | none => rw [h.kept rfl, h'.kept rfl]
  | some v => rw [h.taken v rfl, h'.taken v rfl]

/-- a field of a canonical spec, and where a migration takes its value from -/
structure Rule where
  α : Type
  source : Legacy.Spec → Option α
  field : Canonical.Spec → α

/-- a text counts when it is not empty -/
def filled (s : String) : Option String := if s = "" then none else some s

/-- and a map when it has an entry -/
def populated {α : Type} (m : StringMap α) : Option (StringMap α) := if m.entries = [] then none else some m

/-- the text of the memory limit, also when it is empty -/
def memory (limits : Option (StringMap Quantity)) : Option String := do
  let m ← limits
  let q ← m.get? "memory"
  return q.text

/-- the fields that a migration writes, other than the switches of addons and the request for it -/
def rules : List Rule :=
  [ -- optional values, which count when they are present
    ⟨_, (·.integration.limit), (·.components.server.features.integrationLimit)⟩,
    ⟨_, (·.integration.stateCheckInterval), (·.components.server.features.integrationStateCheckInterval)⟩,
    ⟨_, (·.deployIntegrations), (·.components.server.features.deployIntegrations)⟩,
    ⟨_, (·.components.oauth.disableSarCheck), (·.components.oauth.disableSarCheck)⟩,
    ⟨_, (·.demoData), (·.demoData)⟩,
    -- memory limits
    ⟨_, (memory ·.components.server.resources.limits), (·.components.server.resources.memory)⟩,
    ⟨_, (memory ·.components.db.resources.limits), (·.components.database.resources.memory)⟩,
    ⟨_, (memory ·.components.metadata.resources.limits), (·.components.metadata.resources.memory)⟩,
    ⟨_, (memory ·.components.prometheus.resources.limits), (·.components.prometheus.resources.memory)⟩,
    ⟨_, (memory ·.components.grafana.resources.limits), (·.components.grafana.resources.memory)⟩,
    -- texts
    ⟨_, (filled ·.components.db.resources.volumeCapacity), (·.components.database.resources.volumeCapacity)⟩,
    ⟨_, (filled ·.components.metadata.resources.volumeCapacity), (·.components.metadata.resources.volumeCapacity)⟩,
    ⟨_, (filled ·.components.prometheus.resources.volumeCapacity), (·.components.prometheus.resources.volumeCapacity)⟩,
    ⟨_, (filled ·.routeHostname), (·.routeHostname)⟩,
    ⟨_, (filled ·.sarNamespace), (·.components.oauth.sarNamespace)⟩,
    ⟨_, (filled ·.components.db.user), (·.components.database.user)⟩,
    ⟨_, (filled ·.components.db.database), (·.components.database.name)⟩,
    ⟨_, (filled ·.components.server.features.managementUrlFor3scale),
      (·.components.server.features.managementUrlFor3scale)⟩,
    -- repositories, which stay unset rather than become empty
    ⟨_, fun l => (populated l.mavenRepositories).map some, (·.components.server.features.mavenRepositories)⟩]

theorem follows_getD {α : Type} (source : Option α) (old : α) : Follows source old (source.getD old) := by
  constructor
  · intro v hv
    rw [hv, Option.getD_some]
  · intro hnone
    rw [hnone, Option.getD_none]

theorem follows_copyNonEmpty (source old : String) : Follows (filled source) old (copyNonEmpty source old) := by
  unfold filled copyNonEmpty
  by_cases hs : source = "" <;> constructor <;> simp_all

theorem follows_copyTable (source : StringMap String) (old : Option (StringMap String)) :
    Follows ((populated source).map some) old (copyTable source old) := by
  unfold populated copyTable StringMap.isEmpty
  by_cases hs : source.entries = [] <;> constructor <;> simp_all

theorem follows_copyMemory (limits : Option (StringMap Quantity)) (old : String) :
    Follows (memory limits) old (copyMemory (limits.bind (·.get? Legacy.memoryKey)) old) := by
  unfold memory Legacy.memoryKey
  cases limits with
  | none => exact ⟨nofun, fun _ => rfl⟩
  | some m =>
    simp only [Option.bind_eq_bind, Option.bind_some]
    cases m.get? "memory" with
    | none => exact ⟨nofun, fun _ => rfl⟩
    | some q => exact ⟨fun _ hv => Option.some.inj hv, nofun⟩

/-- each of the fields follows its source -/
theorem follows_spec (old : Legacy.Spec) (x : Canonical.Spec) :
    ∀ r ∈ rules, Follows (r.source old) (r.field x) (r.field (spec old x)) := by
  simp only [rules, List.forall_mem_cons]
  refine ⟨follows_getD _ _, follows_getD _ _, follows_getD _ _, follows_getD _ _, follows_getD _ _, ?_⟩
  refine ⟨follows_copyMemory _ _, follows_copyMemory _ _, follows_copyMemory _ _, follows_copyMemory _ _,
    follows_copyMemory _ _, ?_⟩
  refine ⟨follows_copyNonEmpty _ _, follows_copyNonEmpty _ _, follows_copyNonEmpty _ _, follows_copyNonEmpty _ _,
    follows_copyNonEmpty _ _, follows_copyNonEmpty _ _, follows_copyNonEmpty _ _, follows_copyNonEmpty _ _, ?_⟩
  exact ⟨follows_copyTable _ _, nofun⟩

/-! ## The frame -/

/-- a spec without what a migration may write -/
def rest (x : Canonical.Spec) : Canonical.Spec :=
  { x with
    routeHostname := ""
    demoData := false
    forceMigration := false
    addons := x.addons.off
    components := { x.components with
      oauth := {}
      server := {}
      metadata := {}
      database := { x.components.database with
        user := ""
        name := ""
        resources := { x.components.database.resources with memory := "", volumeCapacity := "" } }
      prometheus := { x.components.prometheus with resources := {} }
      grafana := {} } }

theorem rest_spec (old : Legacy.Spec) (x : Canonical.Spec) : rest (spec old x) = rest x := by
  simp only [rest, spec, components, database, off_addons]

/-- what the rules write and what they leave is all there is -/
theorem eq_of_rules {x y : Canonical.Spec} (hfields : ∀ r ∈ rules, r.field x = r.field y)
    (hswitches : ∀ a, x.addons.enabled a = y.addons.enabled a) (hforce : x.forceMigration = y.forceMigration)
    (hrest : rest x = rest y) : x = y := by
  have haddons : x.addons = y.addons :=
    Canonical.Addons.ext_of_enabled hswitches (congrArg (·.addons) hrest)
  simp only [rules, List.forall_mem_cons] at hfields
  obtain ⟨backup, hostname, demo, ⟨⟨⟩, ⟨⟨⟩, ⟨⟩⟩, ⟨⟨⟩⟩, ⟨_, _, _, _, ⟨⟩⟩, ⟨_, ⟨⟩⟩, ⟨⟨⟩⟩, upgrade⟩, addons, force⟩ := x
  obtain ⟨backup, hostname, demo, ⟨⟨⟩, ⟨⟨⟩, ⟨⟩⟩, ⟨⟨⟩⟩, ⟨_, _, _, _, ⟨⟩⟩, ⟨_, ⟨⟩⟩, ⟨⟨⟩⟩, upgrade⟩, addons, force⟩ := y
  simp_all [rest]

/-! ## The migration -/

/-- a canonical resource after a migration, against the legacy resource and the canonical one before -/
structure Obeys (l : LegacyResource) (c y : CanonicalResource) : Prop where
  fields : ∀ r ∈ rules, Follows (r.source l.spec) (r.field c.spec) (r.field y.spec)
  switches : ∀ a, y.spec.addons.enabled a = true ↔ c.spec.addons.enabled a = true ∨ Asks l.spec.addons a
  forceMigration : y.spec.forceMigration = false
  rest : rest y.spec = rest c.spec
  /-- the status, as it was but for four members -/
  status : y.status = some { c.status.getD {} with
    phase := .installed
    reason := .migrated
    description := "App migrated from syndesis.io/v1alpha1 to syndesis.io/v1beta1"
    version := (l.status.map (·.version)).getD "" }
  metadata : y.metadata = c.metadata

theorem obeys_apply (l : LegacyResource) (c : CanonicalResource) : Obeys l c (apply l c) where
  fields := follows_spec l.spec c.spec
  switches := enabled_addons l.spec.addons c.spec.addons
  forceMigration := rfl
  rest := rest_spec l.spec c.spec
  status := rfl
  metadata := rfl

theorem Obeys.eq {l : LegacyResource} {c y y' : CanonicalResource} (h : Obeys l c y) (h' : Obeys l c y') : y = y' := by
  have hspec : y.spec = y'.spec := by
    apply eq_of_rules
    · intro r hr
      exact (h.fields r hr).eq (h'.fields r hr)
    · intro a
      rw [Bool.eq_iff_iff, h.switches, h'.switches]
    · rw [h.forceMigration, h'.forceMigration]
    · rw [h.rest, h'.rest]
  have hstatus : y.status = y'.status := by rw [h.status, h'.status]
  have hmetadata : y.metadata = y'.metadata := by rw [h.metadata, h'.metadata]
  cases y
  cases y'
  simp_all

/-- **What a migration does.** For an installed legacy resource and a canonical one that asks for it, the migration
succeeds. Its result obeys the rules, it is the only resource that does, and entries of unknown addons in the legacy
resource make no difference to it. -/
theorem migrate_follows_rules {l : LegacyResource} {c : CanonicalResource} (hphase : l.phase = .installed)
    (hforce : c.spec.forceMigration = true) :
    ∃ y, migrate? l c = some y ∧ (∀ y', Obeys l c y' ↔ y' = y) ∧
      ∀ others, (∀ a : Canonical.Addon, others.get? a.name = l.spec.addons.get? a.name) →
        migrate? { l with spec := { l.spec with addons := others } } c = some y := by
  have heligible : isEligible l c = true := by simp [isEligible, hphase, hforce]
  refine ⟨apply l c, if_pos heligible, fun y' => ⟨fun h => h.eq (obeys_apply l c), ?_⟩, fun others hothers => ?_⟩
  · rintro rfl
    exact obeys_apply l c
  · have heligible' : isEligible { l with spec := { l.spec with addons := others } } c = true := heligible
    unfold migrate?
    rw [if_pos heligible']
    simp only [apply, spec, addons_congr hothers]
    rfl

/-- an installed legacy resource with a known addon and an unknown one, and a memory limit without a text -/
def outspoken : LegacyResource where
  metadata := {}
  spec :=
    { routeHostname := "new.example.org"
      demoData := some false
      integration := { limit := some 0 }
      addons := .ofList [("komodo", .singleton "enabled" "true"), ("todo", .singleton "enabled" "true")]
      components := { server := { resources := { limits := some (.singleton "memory" ⟨""⟩) } } } }
  status := some { phase := .installed, version := "1.8" }

/-- a canonical resource that has a value for most of what the legacy one says, and for more -/
def occupied : CanonicalResource where
  metadata := { name := some "app" }
  spec :=
    { routeHostname := "old.example.org"
      demoData := true
      addons := { jaeger := { enabled := true, queryUri := "http://jaeger" } }
      components :=
        { server := { resources := ⟨"1Gi"⟩, features := { integrationLimit := 5 } }
          database := { user := "syndesis", url := "postgresql:5432" } }
      forceMigration := true }
  status := some { upgradeAttempts := 2 }

theorem migrate_follows_rules_occupied : outspoken.phase = .installed ∧ occupied.spec.forceMigration = true ∧
    ∃ y s, migrate? outspoken occupied = some y ∧ y.status = some s ∧ Obeys outspoken occupied y ∧
      y.spec.routeHostname = "new.example.org" ∧ y.spec.demoData = false ∧
      y.spec.components.server.features.integrationLimit = 0 ∧ y.spec.components.server.resources.memory = "" ∧
      y.spec.addons = { jaeger := { enabled := true, queryUri := "http://jaeger" }, todo := { enabled := true } } ∧
      y.spec.components.database = { user := "syndesis", url := "postgresql:5432" } ∧ s.upgradeAttempts = 2 := by
  obtain ⟨y, hy, hobeys, -⟩ := migrate_follows_rules (l := outspoken) (c := occupied) rfl rfl
  have hresult : apply outspoken occupied = y := Option.some.inj hy
  have h : Obeys outspoken occupied y := (hobeys y).2 rfl
  refine ⟨rfl, rfl, y, _, hy, h.status, h, ?_⟩
  subst hresult
  exact ⟨rfl, rfl, rfl, rfl, rfl, rfl, rfl⟩

end Migration

end MigrationOperator
