/-
What is written fits what is published.

The definition that the cluster installs publishes a schema for either version. An object that this library writes passes
the validation against the schema of its version, and pruning has nothing to take from it: every member of its spec and
its status, at any depth, is declared where it stands and has the type that is declared for it. A field that was renamed,
or typed otherwise, on one side only would break this.

- `Codec.Published`: what the codec writes fits the schema that is published for it. Scalars are, maps and nullable values
  are when what they hold is, and a record is when its fields are (`Codec.published_record`).
- `published?_merged`: the schema of a version, looked up in the definition as the cluster does it.
- `encoding_fits_definition`: the statement on whole objects. Their metadata and type are the platform's and declared by
  no schema.
-/
import Mathlib.Data.List.Basic
import MigrationOperator.Definition
import MigrationOperator.Proofs.Json.OpenApi
import MigrationOperator.Resource.Lawful

namespace MigrationOperator

/-- what is written fits what is published -/
class Codec.Published {α : Type} (c : Codec α) : Prop where
  fits_write : ∀ x, OpenApi.Fits c.schema.json (c.write x)

/-- what is written of the field fits, and a field that is required is written -/
class Column.Published {α : Type} (c : Column α) : Prop where
  fits_write : ∀ x, OpenApi.Fits c.codec.schema.json (c.codec.write x)
  omitted_eq : c.absent = none → ∀ x, c.omitted x = false

/-- each member that is written is a property and fits, and none is missing -/
class Columns.Published {ρ σ : Type} (columns : Columns ρ σ) : Prop where
  fits_write : ∀ row, ∀ m ∈ columns.write row,
    ∃ schema, (m.1, schema) ∈ columns.properties ∧ OpenApi.Fits schema.json m.2
  required_subset : ∀ row, columns.required ⊆ (columns.write row).map Prod.fst

/-! ## Codecs -/

namespace Codec

variable {α β : Type} (c : Codec α)

instance : text.Published := ⟨fun t => OpenApi.fits_text_iff.2 ⟨t, rfl⟩⟩

instance : flag.Published := ⟨fun b => OpenApi.fits_flag_iff.2 ⟨b, rfl⟩⟩

instance : int32.Published := ⟨fun n => OpenApi.fits_int32_iff.2 ⟨n, rfl⟩⟩

instance : Quantity.codec.Published := ⟨fun q => OpenApi.fits_quantity_iff.2 (Or.inl ⟨q.text, rfl⟩)⟩

instance (f : α → β) (g : β → α) [c.Published] : (c.imap f g).Published := ⟨fun x => Published.fits_write (c := c) (g x)⟩

instance [c.Published] : c.nullable.Published where
  fits_write x := by
    cases x with
    | none => exact OpenApi.fits_null c.schema
    | some x => exact (Published.fits_write (c := c) x).relax (OpenApi.relaxes_nullable c.schema)

instance [c.Published] : c.table.Published where
  fits_write m := by
    refine OpenApi.fits_table fun e he => ?_
    obtain ⟨e, -, rfl⟩ := List.mem_map.1 he
    exact Published.fits_write e.2

end Codec

/-! ## Columns -/

namespace Column

variable {α : Type}

/-- neither the description nor the default of a field changes what fits -/
theorem fits_schema (c : Column α) {v : Json} (h : OpenApi.Fits c.codec.schema.json v) :
    OpenApi.Fits c.schema.json v := by
  obtain ⟨name, codec, absent, beyond, omitted, note⟩ := c
  have hpublished (x : α) {schema : Schema} (hs : OpenApi.Fits schema.json v) :
      OpenApi.Fits (if omitted x then schema else .defaulted (codec.write x) schema).json v := by
    split
    · exact hs
    · exact hs.relax (OpenApi.relaxes_defaulted _ _)
  have hnoted (text : String) : OpenApi.Fits (Schema.described text codec.schema).json v :=
    h.relax (OpenApi.relaxes_described text _)
  cases note with
  | none =>
    cases absent with
    | none => exact h
    | some x => exact hpublished x h
  | some text =>
    cases absent with
    | none => exact hnoted text
    | some x => exact hpublished x (hnoted text)

variable (name : String) (c : Codec α) (note : Option String)

instance (x : α) (beyond : Option α) (omitted : α → Bool) [c.Published] :
    (Column.mk name c (some x) beyond omitted note).Published :=
  ⟨Codec.Published.fits_write, nofun⟩

instance : (text name note).Published := ⟨Codec.Published.fits_write (c := Codec.text), nofun⟩

instance : (flag name note).Published := ⟨Codec.Published.fits_write (c := Codec.flag), nofun⟩

instance : (int32 name note).Published := ⟨Codec.Published.fits_write (c := Codec.int32), nofun⟩

instance [c.Published] : (table name c note).Published := ⟨Codec.Published.fits_write (c := c.table), nofun⟩

instance [c.Published] : (optional name c note).Published := ⟨Codec.Published.fits_write (c := c.nullable), nofun⟩

instance [Inhabited α] [c.Published] : (nested name c note).Published := ⟨Codec.Published.fits_write (c := c), nofun⟩

end Column

namespace Columns

instance : Columns.nil.Published := ⟨fun _ _ hm => absurd hm List.not_mem_nil, fun _ _ hk => hk⟩

instance {α ρ σ : Type} (c : Column α) (rest : Columns ρ σ) [c.Published] [rest.Published] :
    (Columns.cons c rest).Published where
  fits_write := by
    rintro ⟨x, row⟩ m hm
    have hrest : ∀ m ∈ rest.write row, ∃ schema, (m.1, schema) ∈ (c.name, c.schema) :: rest.properties ∧
        OpenApi.Fits schema.json m.2 := by
      intro m hm
      obtain ⟨schema, hmem, hfits⟩ := Published.fits_write row m hm
      exact ⟨schema, List.mem_cons_of_mem _ hmem, hfits⟩
    rw [write] at hm
    split at hm
    · exact hrest m hm
    · rcases List.mem_cons.1 hm with rfl | hm
      · exact ⟨c.schema, List.mem_cons_self, c.fits_schema (Column.Published.fits_write x)⟩
      · exact hrest m hm
  required_subset := by
    rintro ⟨x, row⟩ k hk
    have hrest : k ∈ rest.required → k ∈ ((Columns.cons c rest).write (x, row)).map Prod.fst := by
      intro hk
      have hmem := Published.required_subset row hk
      rw [write]
      split
      · exact hmem
      · exact List.mem_cons_of_mem _ hmem
    rw [required] at hk
    cases habsent : c.absent with
    | some _ =>
      rw [habsent] at hk
      exact hrest hk
    | none =>
      rw [habsent] at hk
      rcases List.mem_cons.1 hk with rfl | hk
      · rw [write, Column.Published.omitted_eq habsent x]
        exact List.mem_cons_self
      · exact hrest hk

theorem keys_properties {ρ σ : Type} (columns : Columns ρ σ) : columns.properties.map Prod.fst = columns.names := by
  induction columns with
  | nil => rfl
  | cons c rest ih => rw [properties, names, List.map_cons, ih]

end Columns

/-- a record is published as its fields are -/
theorem Codec.published_record {α ρ σ : Type} {style : Style} {columns : Columns ρ σ} {row : α → ρ} {ofRow : ρ → α}
    {note : Option String} (hnames : columns.names.Nodup) [columns.Published] :
    (record style columns row ofRow note).Published where
  fits_write x := by
    have hfits : OpenApi.Fits (Schema.record columns.properties columns.required).json
        (.object (columns.write (row x))) := by
      refine OpenApi.fits_record (columns.keys_properties ▸ hnames) (fun k hk => ?_) fun m hm => ?_
      · exact Entries.mem_keys_ofList (Columns.Published.required_subset (row x) hk)
      · exact Columns.Published.fits_write (row x) m (Entries.mem_of_mem_ofList hm)
    cases note with
    | none => exact hfits
    | some note => exact hfits.relax (OpenApi.relaxes_described note _)

/-! ## The structures of the schemas -/

instance : Phase.codec.Published := by unfold Phase.codec; infer_instance

instance : Reason.codec.Published := by unfold Reason.codec; infer_instance

instance : BackupStatus.codec.Published := Codec.published_record (by decide)

instance : Status.codec.Published := Codec.published_record (by decide)

namespace Legacy

instance : IntegrationSpec.codec.Published := Codec.published_record (by decide)

instance : Resources.codec.Published := Codec.published_record (by decide)

instance : ResourcesWithVolume.codec.Published := Codec.published_record (by decide)

instance : ServerFeatures.codec.Published := Codec.published_record (by decide)

instance : ServerConfiguration.codec.Published := Codec.published_record (by decide)

instance : MetaConfiguration.codec.Published := Codec.published_record (by decide)

instance : DbConfiguration.codec.Published := Codec.published_record (by decide)

instance : PrometheusConfiguration.codec.Published := Codec.published_record (by decide)

instance : GrafanaConfiguration.codec.Published := Codec.published_record (by decide)

instance : OauthConfiguration.codec.Published := Codec.published_record (by decide)

instance : ComponentsSpec.codec.Published := Codec.published_record (by decide)

instance : Spec.codec.Published := Codec.published_record (by decide)

end Legacy

namespace Canonical

instance : Resources.codec.Published := Codec.published_record (by decide)

instance : AddonSpec.codec.Published := Codec.published_record (by decide)

instance : JaegerConfiguration.codec.Published := Codec.published_record (by decide)

instance : DvConfiguration.codec.Published := Codec.published_record (by decide)

instance : PublicApiConfiguration.codec.Published := Codec.published_record (by decide)

instance : Addons.codec.Published := Codec.published_record (by decide)

instance : BackupConfig.codec.Published := Codec.published_record (by decide)

instance : OauthConfiguration.codec.Published := Codec.published_record (by decide)

instance : ResourcesWithVolume.codec.Published := Codec.published_record (by decide)

instance : ResourcesWithPersistentVolume.codec.Published := Codec.published_record (by decide)

instance : VolumeOnlyResources.codec.Published := Codec.published_record (by decide)

instance : ServerFeatures.codec.Published := Codec.published_record (by decide)

instance : ServerConfiguration.codec.Published := Codec.published_record (by decide)

instance : MetaConfiguration.codec.Published := Codec.published_record (by decide)

instance : DatabaseConfiguration.codec.Published := Codec.published_record (by decide)

instance : PrometheusConfiguration.codec.Published := Codec.published_record (by decide)

instance : GrafanaConfiguration.codec.Published := Codec.published_record (by decide)

instance : UpgradeConfiguration.codec.Published := Codec.published_record (by decide)

instance : ComponentsSpec.codec.Published := Codec.published_record (by decide)

instance : Spec.codec.Published := Codec.published_record (by decide)

end Canonical

instance : Legacy.kind.spec.Published := inferInstanceAs Legacy.Spec.codec.Published

instance : Canonical.kind.spec.Published := inferInstanceAs Canonical.Spec.codec.Published

/-! ## Whole objects -/

/-- the schema that a definition publishes for a version -/
def Definition.published? (definition : Json) (version : String) : Option Json :=
  match definition.at? ["spec", "versions"] with
  | some (.arr versions) =>
    (versions.find? fun v => (v.get? "name").bind Json.asString? == some version).bind
      (·.at? ["schema", "openAPIV3Schema"])
  | _ => none

namespace OpenApi

/-- the members that the platform keeps in every object -/
def platformMembers : List String := ["apiVersion", "kind", "metadata"]

/-- a whole object without what is not declared -/
def pruneObject (s : Json) : Json → Json
  | .obj ms => .obj (ms.filterMap fun m =>
      if m.1 ∈ platformMembers then some m else (member? m.1 s).map fun t => (m.1, prune t m.2))
  | v => v

/-- an object is valid under a schema, which declares all of its spec and of its status, so that nothing is pruned -/
structure Admits (s v : Json) : Prop where
  accepted : accepts s v = true
  pruned : pruneObject s v = v
  declared : ∀ k ∈ ["spec", "status"], ∀ p u, v.at? (k :: p) = some u →
    ∃ t, at? (k :: p) s = some t ∧ Fits t u

/-- an object is admitted when its members besides those of the platform are declared and fit -/
theorem admits_obj {s : Json} {ms : List (String × Json)} (htype : allows s "object" = true)
    (hrequired : ∀ k ∈ required s, k ∈ ms.map Prod.fst)
    (hplatform : ∀ k ∈ platformMembers, member? k s = none)
    (h : ∀ m ∈ ms, m.1 ∈ platformMembers ∨ ∃ t, member? m.1 s = some t ∧ Fits t m.2) : Admits s (.obj ms) where
  accepted := by
    rw [accepts_obj_iff]
    refine ⟨htype, hrequired, fun m hm t ht => ?_⟩
    rcases h m hm with hk | ⟨t', ht', hfits⟩
    · rw [hplatform m.1 hk] at ht
      cases ht
    · obtain rfl := Option.some.inj (ht'.symm.trans ht)
      exact hfits.accepted
  pruned := by
    have hkeep : ∀ m ∈ ms, (if m.1 ∈ platformMembers then some m
        else (member? m.1 s).map fun t => (m.1, prune t m.2)) = some m := by
      intro m hm
      split
      · rfl
      · rename_i hk
        obtain ⟨t, ht, hfits⟩ := (h m hm).resolve_left hk
        rw [ht, Option.map_some, hfits.pruned]
    rw [pruneObject, List.filterMap_congr hkeep]
    exact congrArg Json.obj List.filterMap_some
  declared k hk p u hu := by
    obtain ⟨e, he, hrest⟩ := Json.exists_get?_of_at?_cons hu
    have hdeclared : k ∉ platformMembers := by
      unfold platformMembers
      simp only [List.mem_cons, List.not_mem_nil, or_false] at hk
      rcases hk with rfl | rfl <;> decide
    obtain ⟨t, ht, hfits⟩ := (h (k, e) (Entries.mem_of_find? he)).resolve_left hdeclared
    obtain ⟨t', ht', hfits'⟩ := hfits.at? hrest
    refine ⟨t', ?_, hfits'⟩
    rw [OpenApi.at?, ht]
    exact ht'

end OpenApi

namespace Definition

variable (v : SchemaVersion)

/-- the members that the schema of an object declares -/
def properties : List (String × Schema) := [("spec", specSchema v), ("status", statusSchema)]

/-- the schema of an object as it is published -/
def published : Json := (objectSchema v).json.set "title" (.str SchemaVersion.kind)

/-- the schema of a version is published under its name -/
theorem published?_merged : published? merged v.name = some (published v) := by
  cases v <;> rfl

/-- the title and the description of an object do not constrain it -/
theorem relaxes_published : OpenApi.Relaxes (published v) (Schema.record (properties v) ["spec"]).json := by
  have htitle : OpenApi.Relaxes (published v) (objectSchema v).json :=
    OpenApi.relaxes_set _ (by decide) fun hk => absurd hk (by decide)
  exact htitle.trans (OpenApi.relaxes_described _ _)

end Definition

namespace Kind

variable {σ : Type} (k : Kind σ)

/-- besides the members of the platform, an object has its spec and perhaps a status -/
theorem member_of_write {x : Resource σ} {m : String × Json} (hm : m ∈ (k.write x).members) :
    m.1 ∈ OpenApi.platformMembers ∨ m = ("spec", k.spec.write x.spec) ∨ ∃ s, m = ("status", Status.codec.write s) := by
  obtain ⟨metadata, spec, status⟩ := x
  rcases Entries.mem_insert hm with rfl | hm
  · exact Or.inl (show "kind" ∈ OpenApi.platformMembers by decide)
  rcases Entries.mem_insert hm with rfl | hm
  · exact Or.inl (show "apiVersion" ∈ OpenApi.platformMembers by decide)
  have hm := Entries.mem_of_mem_ofList hm
  cases status with
  | none =>
    rcases List.mem_cons.1 hm with rfl | hm
    · exact Or.inl (show "metadata" ∈ OpenApi.platformMembers by decide)
    · exact Or.inr (Or.inl (List.mem_singleton.1 hm))
  | some s =>
    rcases List.mem_cons.1 hm with rfl | hm
    · exact Or.inl (show "metadata" ∈ OpenApi.platformMembers by decide)
    rcases List.mem_cons.1 hm with rfl | hm
    · exact Or.inr (Or.inl rfl)
    · exact Or.inr (Or.inr ⟨s, List.mem_singleton.1 hm⟩)

/-- a resource is written as its version publishes it -/
theorem admits_write [k.spec.Published] (hspec : Definition.specSchema k.version = k.spec.schema) (x : Resource σ) :
    OpenApi.Admits (Definition.published k.version) (k.write x) := by
  have hrelaxes := Definition.relaxes_published k.version
  have hnames : ((Definition.properties k.version).map Prod.fst).Nodup := by
    show ["spec", "status"].Nodup
    decide
  have hdeclared : ∀ {n : String} {schema : Schema}, (n, schema) ∈ Definition.properties k.version →
      OpenApi.member? n (Definition.published k.version) = some schema.json := by
    intro n schema h
    rw [hrelaxes.member?_eq, OpenApi.member?_record_of_mem hnames h]
  have hwrite : k.write x = .obj (k.write x).members := rfl
  rw [hwrite]
  refine OpenApi.admits_obj ?_ ?_ ?_ ?_
  · rw [hrelaxes.allows_eq, OpenApi.allows_record]
  · intro n hn
    rw [hrelaxes.required_eq, OpenApi.required_record] at hn
    obtain rfl := List.mem_singleton.1 hn
    have hfind : Entries.find? "spec" (k.write x).members = some (k.spec.write x.spec) := by
      rw [Entries.find?_eq_head?, (k.shows_write x).spec, List.head?_cons]
    exact Entries.mem_keys_of_find? hfind
  · intro n hn
    rw [hrelaxes.member?_eq]
    apply OpenApi.member?_record_eq_none
    show n ∉ ["spec", "status"]
    unfold OpenApi.platformMembers at hn
    simp only [List.mem_cons, List.not_mem_nil, or_false] at hn
    rcases hn with rfl | rfl | rfl <;> decide
  · intro m hm
    rcases k.member_of_write hm with hplatform | rfl | ⟨s, rfl⟩
    · exact Or.inl hplatform
    · refine Or.inr ⟨_, hdeclared List.mem_cons_self, ?_⟩
      rw [hspec]
      exact Codec.Published.fits_write x.spec
    · refine Or.inr ⟨_, hdeclared (List.mem_cons_of_mem _ List.mem_cons_self), ?_⟩
      exact Codec.Published.fits_write (c := Status.codec.nullable) (some s)

end Kind

/-- **What is written fits what is published.** Of either version, every resource is written as an object that the schema
published for that version admits: its spec and its status are valid, every member in them is declared where it stands,
and pruning leaves the object as it is. -/
theorem encoding_fits_definition :
    (∀ x : LegacyResource, ∃ s, Definition.published? Definition.merged SchemaVersion.legacy.name = some s ∧
      OpenApi.Admits s (Legacy.kind.write x)) ∧
    ∀ x : CanonicalResource, ∃ s, Definition.published? Definition.merged SchemaVersion.canonical.name = some s ∧
      OpenApi.Admits s (Canonical.kind.write x) := by
  constructor
  · intro x
    exact ⟨_, Definition.published?_merged .legacy, Legacy.kind.admits_write rfl x⟩
  · intro x
    exact ⟨_, Definition.published?_merged .canonical, Canonical.kind.admits_write rfl x⟩

/-- a field that was renamed on one side would be pruned, and one that was typed otherwise refused -/
example :
    let s := Canonical.Spec.codec.schema.json
    OpenApi.prune s (.obj [("demodata", .bool true)]) = .obj [] ∧
      OpenApi.accepts s (.obj [("demoData", .str "true")]) = false :=
  ⟨rfl, rfl⟩

end MigrationOperator
