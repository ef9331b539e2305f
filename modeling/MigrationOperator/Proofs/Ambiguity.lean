/-
Documents that decode under both schemas.

A document that both schemas accept is read as a canonical one. `migrate_ambiguous` says that this loses nothing: had the
document been read as a legacy one and migrated, the same canonical spec would have come out, up to five texts of two
addons that the legacy schema takes for parameters without a meaning.

The schemas are compared record by record. `Codec.Agree` relates what two codecs read from one document without lists,
and each pair of records is one lemma: what stands under a name that only one of the two knows is at its default.
-/
import MigrationOperator.Migration
import MigrationOperator.Proofs.Codec.Documents

namespace MigrationOperator

/-! ## Fields of two records at once -/

/-- what two codecs read from the same document without lists is related -/
def Codec.Agree {α β : Type} (c : Codec α) (c' : Codec β) (P : α → β → Prop) : Prop :=
  ∀ (d : Doc) (x : α) (y : β), d.ListFree → c.read d = .ok x → c'.read d = .ok y → P x y

namespace Column

variable {α β : Type} {n n' : String} {note note' : Option String} {s : Option Doc}

/-- a field that is left out is at its default -/
theorem Reads.eq_absent {c : Column α} {x x₀ : α} (h : c.Reads s x) (hs : s = none) (hc : c.absent = some x₀) :
    x = x₀ := by
  subst hs
  exact Option.some.inj (h.symm.trans hc)

theorem Reads.text_eq {x y : String} (h : (text n note).Reads s x) (h' : (text n' note').Reads s y) : x = y := by
  cases s with
  | none => exact (h.eq_absent rfl rfl).trans (h'.eq_absent rfl rfl).symm
  | some d => exact Except.ok.inj (Eq.trans h.symm h')

/-- a flag is read as itself where it may be left out as well, and left out counts as off -/
theorem Reads.flag_eq {b : Bool} {o : Option Bool} (h : (flag n note).Reads s b)
    (h' : (optional n' .flag note').Reads s o) : b = o.getD false := by
  cases s with
  | none =>
    rw [h.eq_absent rfl rfl, h'.eq_absent rfl rfl]
    rfl
  | some d =>
    cases d with
    | bool v =>
      obtain rfl : v = b := Except.ok.inj h
      obtain rfl : some v = o := Except.ok.inj h'
      rfl
    | _ => exact absurd h nofun

/-- nested records agree when their codecs do, and their defaults -/
theorem Reads.agree_nested {c : Codec α} {c' : Codec β} [Inhabited α] [Inhabited β] {P : α → β → Prop} {x : α} {y : β}
    (h : (nested n c note).Reads s x) (h' : (nested n' c' note').Reads s y) (hs : ∀ d, s = some d → d.ListFree)
    (hagree : c.Agree c' P) (hdefault : P default default) : P x y := by
  cases s with
  | none =>
    rw [h.eq_absent rfl rfl, h'.eq_absent rfl rfl]
    exact hdefault
  | some d => exact hagree d x y (hs d rfl) h h'

end Column

/-! ## Migrating into an empty spec -/

namespace Migration

theorem copyNonEmpty_empty (s : String) : copyNonEmpty s "" = s := by
  rw [copyNonEmpty]
  split
  · exact (String.isEmpty_iff.1 ‹_›).symm
  · rfl

theorem volume_empty {old : Legacy.ResourcesWithVolume} (h : old.limits = none) :
    volume old {} = { volumeCapacity := old.volumeCapacity } := by
  simp [volume, Legacy.ResourcesWithVolume.memoryLimit, h, copyMemory, copyNonEmpty_empty]

/-- addons that nobody asks for stay as they are -/
theorem addons_eq {old : StringMap Legacy.AddonParameters} (h : ∀ e ∈ old.entries, asksFor e.2 = false)
    (x : Canonical.Addons) : addons old x = x := by
  have hstep : ∀ e ∈ old.entries, ∀ y, copyAddon y e.1 e.2 = y := by
    intro e he y
    rw [copyAddon]
    cases Canonical.Addon.ofName? e.1 with
    | none => rfl
    | some a => simp [h e he]
  rw [addons]
  generalize old.entries = es at hstep
  induction es with
  | nil => rfl
  | cons e es ih =>
    rw [List.foldl_cons, hstep e List.mem_cons_self]
    exact ih fun e he => hstep e (List.mem_cons_of_mem _ he)

end Migration

/-! ## Components -/

theorem agree_resources : Canonical.Resources.codec.Agree Legacy.Resources.codec fun x y =>
    x = {} ∧ y = {} := by
  intro d x y hd hx hy
  obtain ⟨⟨⟨memory, ⟨⟩⟩, ⟨hmemory, -⟩, rfl⟩, hnox, -⟩ := Codec.of_read_closed (by decide) hd hx
  obtain ⟨⟨⟨limits, requests, ⟨⟩⟩, ⟨hlimits, hrequests, -⟩, rfl⟩, hnoy, -⟩ := Codec.of_read_closed (by decide) hd hy
  obtain rfl := hmemory.eq_absent (hnoy "memory" (by decide)) rfl
  obtain rfl := hlimits.eq_absent (hnox "limits" (by decide)) rfl
  obtain rfl := hrequests.eq_absent (hnox "requests" (by decide)) rfl
  exact ⟨rfl, rfl⟩

theorem agree_volume : Canonical.ResourcesWithVolume.codec.Agree Legacy.ResourcesWithVolume.codec fun x y =>
    x = { volumeCapacity := y.volumeCapacity } ∧ y.limits = none := by
  intro d x y hd hx hy
  obtain ⟨⟨⟨memory, capacity, ⟨⟩⟩, ⟨hmemory, hcapacity, -⟩, rfl⟩, hnox, -⟩ := Codec.of_read_closed (by decide) hd hx
  obtain ⟨⟨⟨limits, requests, capacity', ⟨⟩⟩, ⟨hlimits, -, hcapacity', -⟩, rfl⟩, hnoy, -⟩ :=
    Codec.of_read_closed (by decide) hd hy
  obtain rfl := hmemory.eq_absent (hnoy "memory" (by decide)) rfl
  obtain rfl := hlimits.eq_absent (hnox "limits" (by decide)) rfl
  obtain rfl := hcapacity.text_eq hcapacity'
  exact ⟨rfl, rfl⟩

theorem agree_oauth : Canonical.OauthConfiguration.codec.Agree Legacy.OauthConfiguration.codec fun x y =>
    x = { disableSarCheck := y.disableSarCheck.getD false } := by
  intro d x y hd hx hy
  obtain ⟨⟨⟨check, space, ⟨⟩⟩, ⟨hcheck, hspace, -⟩, rfl⟩, -⟩ := Codec.of_read_closed (by decide) hd hx
  obtain ⟨⟨⟨check', ⟨⟩⟩, ⟨hcheck', -⟩, rfl⟩, hnoy, -⟩ := Codec.of_read_closed (by decide) hd hy
  obtain rfl := hspace.eq_absent (hnoy "sarNamespace" (by decide)) rfl
  rw [hcheck.flag_eq hcheck']

theorem agree_features : Canonical.ServerFeatures.codec.Agree Legacy.ServerFeatures.codec fun x y =>
    x = { managementUrlFor3scale := y.managementUrlFor3scale } := by
  intro d x y hd hx hy
  obtain ⟨⟨⟨limit, interval, deploy, repositories, url, ⟨⟩⟩, ⟨hlimit, hinterval, hdeploy, hrepositories, hurl, -⟩, rfl⟩,
    -⟩ := Codec.of_read_closed (by decide) hd hx
  obtain ⟨⟨⟨expose, url', ⟨⟩⟩, ⟨-, hurl', -⟩, rfl⟩, hnoy, -⟩ := Codec.of_read_closed (by decide) hd hy
  obtain rfl := hlimit.eq_absent (hnoy "integrationLimit" (by decide)) rfl
  obtain rfl := hinterval.eq_absent (hnoy "integrationStateCheckInterval" (by decide)) rfl
  obtain rfl := hdeploy.eq_absent (hnoy "deployIntegrations" (by decide)) rfl
  obtain rfl := hrepositories.eq_absent (hnoy "mavenRepositories" (by decide)) rfl
  obtain rfl := hurl.text_eq hurl'
  rfl

theorem agree_server : Canonical.ServerConfiguration.codec.Agree Legacy.ServerConfiguration.codec fun x y =>
    x = { features := { managementUrlFor3scale := y.features.managementUrlFor3scale } } ∧ y.resources = {} := by
  intro d x y hd hx hy
  obtain ⟨⟨⟨resources, features, ⟨⟩⟩, ⟨hresources, hfeatures, -⟩, rfl⟩, -⟩ := Codec.of_read_closed (by decide) hd hx
  obtain ⟨⟨⟨resources', features', ⟨⟩⟩, ⟨hresources', hfeatures', -⟩, rfl⟩, -⟩ := Codec.of_read_closed (by decide) hd hy
  obtain ⟨rfl, rfl⟩ := hresources.agree_nested hresources' (fun _ => hd.get?) agree_resources ⟨rfl, rfl⟩
  obtain rfl := hfeatures.agree_nested hfeatures' (fun _ => hd.get?) agree_features rfl
  exact ⟨rfl, rfl⟩

theorem agree_meta : Canonical.MetaConfiguration.codec.Agree Legacy.MetaConfiguration.codec fun x y =>
    x = { resources := { volumeCapacity := y.resources.volumeCapacity } } ∧ y.resources.limits = none := by
  intro d x y hd hx hy
  obtain ⟨⟨⟨resources, ⟨⟩⟩, ⟨hresources, -⟩, rfl⟩, -⟩ := Codec.of_read_closed (by decide) hd hx
  obtain ⟨⟨⟨resources', ⟨⟩⟩, ⟨hresources', -⟩, rfl⟩, -⟩ := Codec.of_read_closed (by decide) hd hy
  obtain ⟨rfl, hlimits⟩ := hresources.agree_nested hresources' (fun _ => hd.get?) agree_volume ⟨rfl, rfl⟩
  exact ⟨rfl, hlimits⟩

theorem agree_prometheus :
    Canonical.PrometheusConfiguration.codec.Agree Legacy.PrometheusConfiguration.codec fun x y =>
      x = { resources := { volumeCapacity := y.resources.volumeCapacity } } ∧ y.resources.limits = none := by
  intro d x y hd hx hy
  obtain ⟨⟨⟨rules, resources, ⟨⟩⟩, ⟨hrules, hresources, -⟩, rfl⟩, -⟩ := Codec.of_read_closed (by decide) hd hx
  obtain ⟨⟨⟨resources', ⟨⟩⟩, ⟨hresources', -⟩, rfl⟩, hnoy, -⟩ := Codec.of_read_closed (by decide) hd hy
  obtain rfl := hrules.eq_absent (hnoy "rules" (by decide)) rfl
  obtain ⟨rfl, hlimits⟩ := hresources.agree_nested hresources' (fun _ => hd.get?) agree_volume ⟨rfl, rfl⟩
  exact ⟨rfl, hlimits⟩

theorem agree_grafana : Canonical.GrafanaConfiguration.codec.Agree Legacy.GrafanaConfiguration.codec fun x y =>
    x = {} ∧ y = {} := by
  intro d x y hd hx hy
  obtain ⟨⟨⟨resources, ⟨⟩⟩, ⟨hresources, -⟩, rfl⟩, -⟩ := Codec.of_read_closed (by decide) hd hx
  obtain ⟨⟨⟨resources', ⟨⟩⟩, ⟨hresources', -⟩, rfl⟩, -⟩ := Codec.of_read_closed (by decide) hd hy
  obtain ⟨rfl, rfl⟩ := hresources.agree_nested hresources' (fun _ => hd.get?) agree_resources ⟨rfl, rfl⟩
  exact ⟨rfl, rfl⟩

/-- the canonical components are what a migration makes of the legacy ones -/
theorem agree_components : Canonical.ComponentsSpec.codec.Agree Legacy.ComponentsSpec.codec fun x y =>
    ∀ old : Legacy.Spec, old.components = y → old.integration = {} → old.deployIntegrations = none →
      old.mavenRepositories = .empty → old.sarNamespace = "" → Migration.components old {} = x := by
  intro d x y hd hx hy
  obtain ⟨⟨⟨oauth, server, md, db, prometheus, grafana, upgrade, ⟨⟩⟩,
    ⟨hoauth, hserver, hmeta, hdb, hprometheus, hgrafana, hupgrade, -⟩, rfl⟩, hnox, -⟩ :=
    Codec.of_read_closed (by decide) hd hx
  obtain ⟨⟨⟨server', md', db', prometheus', grafana', oauth', ⟨⟩⟩,
    ⟨hserver', hmeta', hdb', hprometheus', hgrafana', hoauth', -⟩, rfl⟩, hnoy, -⟩ := Codec.of_read_closed (by decide) hd hy
  obtain rfl : db = {} := hdb.eq_absent (hnoy "database" (by decide)) rfl
  obtain rfl : db' = {} := hdb'.eq_absent (hnox "db" (by decide)) rfl
  obtain rfl : upgrade = {} := hupgrade.eq_absent (hnoy "upgrade" (by decide)) rfl
  obtain rfl := hoauth.agree_nested hoauth' (fun _ => hd.get?) agree_oauth rfl
  obtain ⟨rfl, hresources⟩ := hserver.agree_nested hserver' (fun _ => hd.get?) agree_server ⟨rfl, rfl⟩
  obtain ⟨rfl, hmetaLimits⟩ := hmeta.agree_nested hmeta' (fun _ => hd.get?) agree_meta ⟨rfl, rfl⟩
  obtain ⟨rfl, hlimits⟩ := hprometheus.agree_nested hprometheus' (fun _ => hd.get?) agree_prometheus ⟨rfl, rfl⟩
  obtain ⟨rfl, rfl⟩ := hgrafana.agree_nested hgrafana' (fun _ => hd.get?) agree_grafana ⟨rfl, rfl⟩
  rintro old hcomponents hintegration hdeploy hrepositories hspace
  have hserverPart : Migration.server old {} =
      { features := { managementUrlFor3scale := server'.features.managementUrlFor3scale } } := by
    simp [Migration.server, Migration.serverFeatures, hcomponents, hresources, hintegration, hdeploy, hrepositories,
      Migration.copyNonEmpty_empty, Legacy.Resources.memoryLimit, Migration.copyMemory, Migration.copyTable,
      StringMap.isEmpty, StringMap.empty]
  have hdatabase : Migration.database {} {} = {} := by decide
  simp [Migration.components, hcomponents, hserverPart, hdatabase, Migration.oauth, Migration.volume_empty, hmetaLimits,
    hlimits, hspace, Legacy.Resources.memoryLimit, Migration.copyMemory, Migration.copyNonEmpty]

/-- components that are left out stay so -/
theorem components_default (old : Legacy.Spec) (hcomponents : old.components = default) (hintegration : old.integration = {})
    (hdeploy : old.deployIntegrations = none) (hrepositories : old.mavenRepositories = .empty)
    (hspace : old.sarNamespace = "") : Migration.components old {} = default := by
  cases old
  subst hcomponents hintegration hdeploy hrepositories hspace
  rfl

/-! ## Addons -/

/-- the parameters of an addon, all of which are texts -/
def addonParameters : Codec Legacy.AddonParameters := .table .text

section

variable {d : Doc} {t : Legacy.AddonParameters}

theorem exists_str_of_get? (ht : addonParameters.read d = .ok t) {k : String} {e : Doc} (he : d.get? k = some e) :
    ∃ s, e = .str s := by
  obtain ⟨x, hx⟩ := (Codec.of_read_table ht).1 _ (Entries.mem_of_find? he)
  cases e with
  | str s => exact ⟨s, rfl⟩
  | _ => exact absurd hx nofun

/-- a flag among texts is left out -/
theorem get?_eq_none_of_flag (ht : addonParameters.read d = .ok t) {k : String} {b : Bool} {note : Option String}
    (h : (Column.flag k note).Reads (d.get? k) b) : d.get? k = none := by
  cases he : d.get? k with
  | none => rfl
  | some e =>
    obtain ⟨s, rfl⟩ := exists_str_of_get? ht he
    rw [he] at h
    exact absurd h nofun

/-- parameters without the key do not switch the addon on -/
theorem asksFor_eq_false (ht : addonParameters.read d = .ok t) (h : d.get? "enabled" = none)
    (hmembers : ∀ m ∈ d.members, d.get? m.1 = some m.2) : Migration.asksFor t = false := by
  have hget : t.get? "enabled" = none := by
    cases hv : t.get? "enabled" with
    | none => rfl
    | some v =>
      obtain ⟨e, he, -⟩ := (Codec.of_read_table ht).2 _ (Entries.mem_of_find? hv)
      exact absurd (h.symm.trans (hmembers _ he)) nofun
  rw [Migration.asksFor, hget]
  rfl

end

/-- an addon whose parameters are texts is not asked for, and what is read of it is at its default up to its texts -/
def Codec.AgreesOff {α : Type} [Inhabited α] (c : Codec α) (clear : α → α) : Prop :=
  c.Agree addonParameters fun x t => clear x = clear default ∧ Migration.asksFor t = false

theorem agreesOff_addon : Canonical.AddonSpec.codec.AgreesOff id := by
  intro d x t hd hx ht
  obtain ⟨⟨⟨enabled, ⟨⟩⟩, ⟨henabled, -⟩, rfl⟩, -, hmembers⟩ := Codec.of_read_closed (by decide) hd hx
  have hnone := get?_eq_none_of_flag ht henabled
  obtain rfl := henabled.eq_absent hnone rfl
  exact ⟨rfl, asksFor_eq_false ht hnone fun m hm => (hmembers m hm).2⟩

theorem agreesOff_dv : Canonical.DvConfiguration.codec.AgreesOff id := by
  intro d x t hd hx ht
  obtain ⟨⟨⟨enabled, resources, ⟨⟩⟩, ⟨henabled, hresources, -⟩, rfl⟩, -, hmembers⟩ :=
    Codec.of_read_closed (by decide) hd hx
  have hnone := get?_eq_none_of_flag ht henabled
  obtain rfl := henabled.eq_absent hnone rfl
  have hdefault : resources = {} := by
    cases he : d.get? "resources" with
    | none => exact hresources.eq_absent he rfl
    | some e =>
      obtain ⟨s, rfl⟩ := exists_str_of_get? ht he
      change Column.Reads _ (d.get? "resources") _ at hresources
      rw [he] at hresources
      exact absurd hresources nofun
  subst hdefault
  exact ⟨rfl, asksFor_eq_false ht hnone fun m hm => (hmembers m hm).2⟩

/-- without the texts that only the canonical schema gives a meaning -/
def Canonical.JaegerConfiguration.clear (x : Canonical.JaegerConfiguration) : Canonical.JaegerConfiguration :=
  { x with queryUri := "", collectorUri := "", samplerType := "", samplerParam := "" }

def Canonical.PublicApiConfiguration.clear (x : Canonical.PublicApiConfiguration) : Canonical.PublicApiConfiguration :=
  { x with routeHostname := "" }

theorem agreesOff_jaeger : Canonical.JaegerConfiguration.codec.AgreesOff Canonical.JaegerConfiguration.clear := by
  intro d x t hd hx ht
  obtain ⟨⟨⟨enabled, client, operator, query, collector, type, param, ⟨⟩⟩, ⟨henabled, hclient, hoperator, -⟩, rfl⟩,
    -, hmembers⟩ := Codec.of_read_closed (by decide) hd hx
  have hnone := get?_eq_none_of_flag ht henabled
  obtain rfl := henabled.eq_absent hnone rfl
  obtain rfl := hclient.eq_absent (get?_eq_none_of_flag ht hclient) rfl
  obtain rfl := hoperator.eq_absent (get?_eq_none_of_flag ht hoperator) rfl
  exact ⟨rfl, asksFor_eq_false ht hnone fun m hm => (hmembers m hm).2⟩

theorem agreesOff_publicApi :
    Canonical.PublicApiConfiguration.codec.AgreesOff Canonical.PublicApiConfiguration.clear := by
  intro d x t hd hx ht
  obtain ⟨⟨⟨enabled, hostname, check, ⟨⟩⟩, ⟨henabled, -, hcheck, -⟩, rfl⟩, -, hmembers⟩ :=
    Codec.of_read_closed (by decide) hd hx
  have hnone := get?_eq_none_of_flag ht henabled
  obtain rfl := henabled.eq_absent hnone rfl
  obtain rfl := hcheck.eq_absent (get?_eq_none_of_flag ht hcheck) rfl
  exact ⟨rfl, asksFor_eq_false ht hnone fun m hm => (hmembers m hm).2⟩

section

variable {α : Type} [Inhabited α] {c : Codec α} {clear : α → α} {d : Doc} {t : StringMap Legacy.AddonParameters}
  {n : String} {note : Option String} {x : α}

/-- an addon of the canonical schema is at its default up to its texts where the legacy schema reads parameters -/
theorem Column.Reads.clear_eq (h : (Column.nested n c note).Reads (d.get? n) x) (hd : d.ListFree)
    (ht : addonParameters.table.read d = .ok t) (hoff : c.AgreesOff clear) : clear x = clear default := by
  cases he : d.get? n with
  | none => rw [h.eq_absent he rfl]
  | some e =>
    obtain ⟨p, hp⟩ := (Codec.of_read_table ht).1 _ (Entries.mem_of_find? he)
    rw [he] at h
    exact (hoff e x p (hd.get? he) h hp).1

/-- and the parameters do not switch it on -/
theorem Column.Reads.asksFor_eq {e : Doc} {p : Legacy.AddonParameters}
    (h : (Column.nested n c note).Reads (d.get? n) x) (hd : d.ListFree) (he : d.get? n = some e)
    (hp : addonParameters.read e = .ok p) (hoff : c.AgreesOff clear) : Migration.asksFor p = false := by
  rw [he] at h
  exact (hoff e x p (hd.get? he) h hp).2

end

def Canonical.Addons.clear (x : Canonical.Addons) : Canonical.Addons :=
  { x with jaeger := x.jaeger.clear, publicApi := x.publicApi.clear }

/-- a nested record and a map agree when their codecs do, and their defaults -/
theorem Column.Reads.agree_table {α β : Type} [Inhabited α] {c : Codec α} {c' : Codec β} {n n' : String}
    {note note' : Option String} {s : Option Doc} {P : α → StringMap β → Prop} {x : α} {t : StringMap β}
    (h : (nested n c note).Reads s x) (h' : (table n' c' note').Reads s t) (hs : ∀ d, s = some d → d.ListFree)
    (hagree : c.Agree c'.table P) (hdefault : P default .empty) : P x t := by
  cases s with
  | none =>
    rw [h.eq_absent rfl rfl, h'.eq_absent rfl rfl]
    exact hdefault
  | some d => exact hagree d x t (hs d rfl) h h'

/-- addons that both schemas read are off, and up to their texts at their defaults -/
theorem agree_addons : Canonical.Addons.codec.Agree addonParameters.table fun x t =>
    x.clear = {} ∧ ∀ e ∈ t.entries, Migration.asksFor e.2 = false := by
  intro d x t hd hx ht
  obtain ⟨⟨⟨jaeger, ops, todo, knative, dv, camelk, publicApi, ⟨⟩⟩,
    ⟨hjaeger, hops, htodo, hknative, hdv, hcamelk, hpublicApi, -⟩, rfl⟩, -, hmembers⟩ :=
    Codec.of_read_closed (by decide) hd hx
  constructor
  · have h1 := hjaeger.clear_eq hd ht agreesOff_jaeger
    have h2 : ops = default := hops.clear_eq hd ht agreesOff_addon
    have h3 : todo = default := htodo.clear_eq hd ht agreesOff_addon
    have h4 : knative = default := hknative.clear_eq hd ht agreesOff_addon
    have h5 : dv = default := hdv.clear_eq hd ht agreesOff_dv
    have h6 : camelk = default := hcamelk.clear_eq hd ht agreesOff_addon
    have h7 := hpublicApi.clear_eq hd ht agreesOff_publicApi
    subst h2 h3 h4 h5 h6
    rw [Canonical.Addons.clear, h1, h7]
    rfl
  · intro e he
    obtain ⟨e', hmem, hp⟩ := (Codec.of_read_table ht).2 e he
    obtain ⟨hname, hget⟩ := hmembers _ hmem
    simp only [Columns.names, Column.nested, List.mem_cons, List.not_mem_nil, or_false] at hname
    rcases hname with hn | hn | hn | hn | hn | hn | hn
    all_goals rw [hn] at hget
    · exact hjaeger.asksFor_eq hd hget hp agreesOff_jaeger
    · exact hops.asksFor_eq hd hget hp agreesOff_addon
    · exact htodo.asksFor_eq hd hget hp agreesOff_addon
    · exact hknative.asksFor_eq hd hget hp agreesOff_addon
    · exact hdv.asksFor_eq hd hget hp agreesOff_dv
    · exact hcamelk.asksFor_eq hd hget hp agreesOff_addon
    · exact hpublicApi.asksFor_eq hd hget hp agreesOff_publicApi

/-! ## Specs -/

def Canonical.Spec.clearAddonTexts (x : Canonical.Spec) : Canonical.Spec := { x with addons := x.addons.clear }

/-- a spec that both schemas read is, up to the texts of addons, what a migration makes of the legacy one -/
theorem agree_spec : Canonical.Spec.codec.Agree Legacy.Spec.codec fun x y =>
    Migration.spec y { forceMigration := true } = x.clearAddonTexts := by
  intro d x y hd hx hy
  obtain ⟨⟨⟨backup, hostname, demo, components, addons, force, ⟨⟩⟩,
    ⟨hbackup, hhostname, hdemo, hcomponents, haddons, hforce, -⟩, rfl⟩, hnox, -⟩ := Codec.of_read_closed (by decide) hd hx
  obtain ⟨⟨⟨hostname', demo', deploy', test', image', integration', registry', components', master', console', space',
    addons', repositories', ⟨⟩⟩, ⟨hhostname', hdemo', hdeploy', -, -, hintegration', -, hcomponents', -, -, hspace',
    haddons', hrepositories', -⟩, rfl⟩, hnoy, -⟩ := Codec.of_read_closed (by decide) hd hy
  obtain rfl : backup = {} := hbackup.eq_absent (hnoy "backup" (by decide)) rfl
  obtain rfl : force = false := hforce.eq_absent (hnoy "forceMigration" (by decide)) rfl
  obtain rfl := hdeploy'.eq_absent (hnox "deployIntegrations" (by decide)) rfl
  obtain rfl : integration' = {} := hintegration'.eq_absent (hnox "integration" (by decide)) rfl
  obtain rfl := hspace'.eq_absent (hnox "sarNamespace" (by decide)) rfl
  obtain rfl := hrepositories'.eq_absent (hnox "mavenRepositories" (by decide)) rfl
  obtain rfl := hhostname.text_eq hhostname'
  obtain rfl := hdemo.flag_eq hdemo'
  have hmigrated := hcomponents.agree_nested hcomponents' (fun _ => hd.get?) agree_components components_default
    ⟨hostname, demo', none, test', image', {}, registry', components', master', console', "", addons', .empty⟩
    rfl rfl rfl rfl rfl
  obtain ⟨hclear, hoff⟩ := haddons.agree_table haddons' (fun _ => hd.get?) agree_addons ⟨rfl, nofun⟩
  simp only [Migration.spec, hmigrated, Migration.addons_eq hoff, Migration.copyNonEmpty_empty,
    Canonical.Spec.clearAddonTexts, hclear]

/-! ## Texts of addons -/

namespace Doc

/-- what stands at a path of names -/
def at? : List String → Doc → Option Doc
  | [], d => some d
  | k :: ks, d => (d.get? k).bind (at? ks)

def text? : Doc → Option String
  | .str s => some s
  | _ => none

/-- the text at a path, which is empty where there is none -/
def textAt (path : List String) (d : Doc) : String := ((d.at? path).bind text?).getD ""

end Doc

/-- a text of what is read is the one that stands at this path -/
def Codec.Echoes {α : Type} (c : Codec α) (get : α → String) (path : List String) : Prop :=
  ∀ (d : Doc) (x : α), d.ListFree → c.read d = .ok x → get x = d.textAt path

namespace Column

variable {α : Type} {n : String} {note : Option String} {d : Doc}

theorem Reads.echoes_text {x : String} (h : (text n note).Reads (d.get? n) x) : x = d.textAt [n] := by
  have hpath : d.textAt [n] = ((d.get? n).bind Doc.text?).getD "" := by
    rw [Doc.textAt, Doc.at?]
    cases d.get? n <;> rfl
  rw [hpath]
  cases hget : d.get? n with
  | none => exact h.eq_absent hget rfl
  | some e =>
    rw [hget] at h
    cases e with
    | str s =>
      obtain rfl : s = x := Except.ok.inj h
      rfl
    | _ => exact absurd h nofun

theorem Reads.echoes_nested {c : Codec α} [Inhabited α] {get : α → String} {path : List String} {x : α}
    (h : (nested n c note).Reads (d.get? n) x) (hd : d.ListFree) (hc : c.Echoes get path) (hdefault : get default = "") :
    get x = d.textAt (n :: path) := by
  cases hget : d.get? n with
  | none =>
    rw [h.eq_absent hget rfl, hdefault, Doc.textAt, Doc.at?, hget]
    rfl
  | some e =>
    rw [hget] at h
    rw [hc e x (hd.get? hget) h, Doc.textAt, Doc.textAt, Doc.at?, hget]
    rfl

end Column

namespace Canonical

/-- the texts of the tracing addon that only the canonical schema knows -/
def jaegerTexts : List ((JaegerConfiguration → String) × String) :=
  [(JaegerConfiguration.queryUri, "queryUri"), (JaegerConfiguration.collectorUri, "collectorUri"),
    (JaegerConfiguration.samplerType, "samplerType"), (JaegerConfiguration.samplerParam, "samplerParam")]

theorem echoes_jaeger {t : (JaegerConfiguration → String) × String} (ht : t ∈ jaegerTexts) :
    JaegerConfiguration.codec.Echoes t.1 [t.2] := by
  intro d x hd hx
  obtain ⟨⟨⟨enabled, client, operator, query, collector, type, param, ⟨⟩⟩,
    ⟨-, -, -, hquery, hcollector, htype, hparam, -⟩, rfl⟩, -⟩ := Codec.of_read_closed (by decide) hd hx
  simp only [jaegerTexts, List.mem_cons, List.not_mem_nil, or_false] at ht
  rcases ht with rfl | rfl | rfl | rfl
  · exact hquery.echoes_text
  · exact hcollector.echoes_text
  · exact htype.echoes_text
  · exact hparam.echoes_text

theorem echoes_publicApi : PublicApiConfiguration.codec.Echoes PublicApiConfiguration.routeHostname ["routeHostname"] := by
  intro d x hd hx
  obtain ⟨⟨⟨enabled, hostname, check, ⟨⟩⟩, ⟨-, hhostname, -⟩, rfl⟩, -⟩ := Codec.of_read_closed (by decide) hd hx
  exact hhostname.echoes_text

theorem echoes_addons_jaeger {t : (JaegerConfiguration → String) × String} (ht : t ∈ jaegerTexts) :
    Addons.codec.Echoes (fun x => t.1 x.jaeger) ["jaeger", t.2] := by
  intro d x hd hx
  obtain ⟨⟨⟨jaeger, ops, todo, knative, dv, camelk, publicApi, ⟨⟩⟩, ⟨hjaeger, -⟩, rfl⟩, -⟩ :=
    Codec.of_read_closed (by decide) hd hx
  refine hjaeger.echoes_nested hd (echoes_jaeger ht) ?_
  simp only [jaegerTexts, List.mem_cons, List.not_mem_nil, or_false] at ht
  rcases ht with rfl | rfl | rfl | rfl <;> rfl

theorem echoes_addons_publicApi :
    Addons.codec.Echoes (fun x => x.publicApi.routeHostname) ["publicApi", "routeHostname"] := by
  intro d x hd hx
  obtain ⟨⟨⟨jaeger, ops, todo, knative, dv, camelk, publicApi, ⟨⟩⟩, ⟨-, -, -, -, -, -, hpublicApi, -⟩, rfl⟩, -⟩ :=
    Codec.of_read_closed (by decide) hd hx
  exact hpublicApi.echoes_nested hd echoes_publicApi rfl

theorem echoes_spec {get : Addons → String} {path : List String} (h : Addons.codec.Echoes get path)
    (hdefault : get default = "") : Spec.codec.Echoes (fun x => get x.addons) ("addons" :: path) := by
  intro d x hd hx
  obtain ⟨⟨⟨backup, hostname, demo, components, addons, force, ⟨⟩⟩, ⟨-, -, -, -, haddons, -⟩, rfl⟩, -⟩ :=
    Codec.of_read_closed (by decide) hd hx
  exact haddons.echoes_nested hd h hdefault

/-- the texts of addons that `Spec.clearAddonTexts` clears, and where they stand in a spec -/
def addonTexts : List ((Spec → String) × List String) :=
  (fun x => x.addons.publicApi.routeHostname, ["addons", "publicApi", "routeHostname"]) ::
    jaegerTexts.map fun t => (fun x => t.1 x.addons.jaeger, ["addons", "jaeger", t.2])

theorem clearAddonTexts_eq {t : (Spec → String) × List String} (ht : t ∈ addonTexts) (x : Spec) :
    t.1 x.clearAddonTexts = "" := by
  simp only [addonTexts, jaegerTexts, List.map, List.mem_cons, List.not_mem_nil, or_false] at ht
  rcases ht with rfl | rfl | rfl | rfl | rfl <;> rfl

theorem echoes_addonTexts : ∀ t ∈ addonTexts, Spec.codec.Echoes t.1 t.2 := by
  intro t ht
  rcases List.mem_cons.1 ht with rfl | ht
  · exact echoes_spec echoes_addons_publicApi rfl
  · obtain ⟨u, hu, rfl⟩ := List.mem_map.1 ht
    refine echoes_spec (echoes_addons_jaeger hu) ?_
    simp only [jaegerTexts, List.mem_cons, List.not_mem_nil, or_false] at hu
    rcases hu with rfl | rfl | rfl | rfl <;> rfl

end Canonical

/-! ## Documents -/

/-- the spec of a document, which is a list of metadata, spec and status or names them -/
def Doc.spec? : Doc → Option Doc
  | .arr (_ :: spec :: _) _ => some spec
  | d => d.get? "spec"

/-- what a resource is read from has a spec, from which its spec is read -/
theorem Kind.exists_spec_of_read {σ : Type} {k : Kind σ} {d : Doc} {x : Resource σ} (h : k.codec.read d = .ok x) :
    ∃ s, d.spec? = some s ∧ k.spec.read s = .ok x.spec := by
  have h : k.fields.read d = .ok x := h
  cases d with
  | obj ms ending =>
    have hnames : ["metadata", "spec", "status"].Nodup := by decide
    have hobject : ∀ items e, Doc.obj ms ending ≠ .arr items e := fun _ _ => Doc.noConfusion
    obtain ⟨⟨⟨md, spec, status, ⟨⟩⟩, ⟨-, hspec, -⟩, rfl⟩, -⟩ :=
      Codec.of_read_record rfl (by exact hnames) hobject h
    change (Column.required "spec" k.spec).Reads (Doc.get? "spec" (.obj ms ending)) spec at hspec
    show ∃ s, Doc.get? "spec" (.obj ms ending) = some s ∧ _
    cases hget : Doc.get? "spec" (.obj ms ending) with
    | none =>
      rw [hget] at hspec
      exact absurd hspec nofun
    | some s =>
      rw [hget] at hspec
      exact ⟨s, rfl, hspec⟩
  | arr items ending =>
    obtain ⟨⟨md, spec, status, ⟨⟩⟩, left, hitems, rfl⟩ := Codec.exists_readItems_of_read h
    cases items with
    | nil => exact absurd hitems (Columns.readItems_nil_ne_ok rfl)
    | cons first items =>
      obtain ⟨-, hitems⟩ := Columns.readItems_cons_of_ok hitems
      cases items with
      | nil => exact absurd hitems (Columns.readItems_nil_ne_ok rfl)
      | cons second items => exact ⟨second, rfl, (Columns.readItems_cons_of_ok hitems).1⟩
  | _ => exact absurd h nofun

namespace Migration

/-- the resource with its phase taken as installed -/
def installed (l : LegacyResource) : LegacyResource :=
  { l with status := some { l.status.getD {} with phase := .installed } }

/-- **A document means the same under both schemas.** When a document without lists in its spec decodes under both, the
migration of the legacy reading gives the spec of the canonical one, except for the texts of addons that the legacy
schema has no meaning for: the canonical spec has them as they stand in the document, and the migrated one has none. -/
theorem migrate_ambiguous {d : Doc} {c : CanonicalResource} {l : LegacyResource}
    (hfree : ∀ s, d.spec? = some s → s.ListFree) (hc : Canonical.kind.codec.read d = .ok c)
    (hl : Legacy.kind.codec.read d = .ok l) (namespaceName : String) :
    ∃ s y, d.spec? = some s ∧ migrate? (installed l) (standIn (installed l) namespaceName) = some y ∧
      y.spec = c.spec.clearAddonTexts ∧
      ∀ t ∈ Canonical.addonTexts, t.1 c.spec = s.textAt t.2 ∧ t.1 y.spec = "" := by
  obtain ⟨s, hs, hcanonical⟩ := Kind.exists_spec_of_read hc
  obtain ⟨s', hs', hlegacy⟩ := Kind.exists_spec_of_read hl
  obtain rfl := Option.some.inj (hs.symm.trans hs')
  have hspec : spec l.spec { forceMigration := true } = c.spec.clearAddonTexts :=
    agree_spec s c.spec l.spec (hfree s hs) hcanonical hlegacy
  refine ⟨s, apply (installed l) (standIn (installed l) namespaceName), hs, if_pos rfl, hspec, fun t ht => ⟨?_, ?_⟩⟩
  · exact Canonical.echoes_addonTexts t ht s c.spec (hfree s hs) hcanonical
  · have htext : t.1 c.spec.clearAddonTexts = "" := Canonical.clearAddonTexts_eq ht c.spec
    rw [← htext, ← hspec]
    rfl

/-- a document whose spec says something under both schemas -/
def ambiguous : Doc := Json.doc <| .obj [("metadata", .obj [("name", .str "app")]),
  ("spec", .obj [("addons", .obj [("jaeger", .obj [("queryUri", .str "http://jaeger")])]),
    ("components", .obj [("oauth", .obj [("disableSarCheck", .bool true)])]),
    ("demoData", .bool true), ("routeHostname", .str "example.org")])]

theorem migrate_ambiguous_document : ∃ c l s y, Canonical.kind.codec.read ambiguous = .ok c ∧
    Legacy.kind.codec.read ambiguous = .ok l ∧ ambiguous.spec? = some s ∧
    migrate? (installed l) (standIn (installed l) "syndesis") = some y ∧ y.spec = c.spec.clearAddonTexts ∧
    c.spec.addons.jaeger.queryUri = "http://jaeger" := by
  have hc : Canonical.kind.codec.read ambiguous = .ok ⟨{ name := some "app" },
      { routeHostname := "example.org", demoData := true, components := { oauth := { disableSarCheck := true } },
        addons := { jaeger := { queryUri := "http://jaeger" } } }, none⟩ := rfl
  have hl : Legacy.kind.codec.read ambiguous = .ok ⟨{ name := some "app" },
      { routeHostname := "example.org", demoData := some true,
        components := { oauth := { disableSarCheck := some true } },
        addons := .singleton "jaeger" (.singleton "queryUri" "http://jaeger") }, none⟩ := rfl
  have hfree : ∀ s, ambiguous.spec? = some s → s.ListFree := by
    intro s hs
    obtain rfl := Option.some.inj hs
    simp [Json.doc, Json.docMembers, Doc.ListFree, Doc.ListFreeMembers]
  obtain ⟨s, y, hs, hy, hspec, htexts⟩ := migrate_ambiguous hfree hc hl "syndesis"
  exact ⟨_, _, s, y, hc, hl, hs, hy, hspec, rfl⟩

end Migration

end MigrationOperator
