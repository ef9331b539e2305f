/-
Codecs that write normal values.

A codec is tidy when the members of every object it writes stand in key order, all the way down. Scalars are, and nullable
values, maps and records are as soon as their parts are, so the instances of the schemas follow their columns.
-/
import MigrationOperator.Codec.Record
import MigrationOperator.Json.Normal
import MigrationOperator.Resource.Canonical

namespace MigrationOperator

/-- what is written is normal -/
class Codec.Tidy {α : Type} (c : Codec α) : Prop where
  normal_write : ∀ x, (c.write x).Normal

/-- what is written of the field is normal -/
class Column.Tidy {α : Type} (c : Column α) : Prop where
  normal_write : ∀ x, (c.codec.write x).Normal

/-- what is written of each field is normal -/
class Columns.Tidy {ρ σ : Type} (columns : Columns ρ σ) : Prop where
  normal_write : ∀ row, ∀ m ∈ columns.write row, m.2.Normal

/-! ## Codecs -/

namespace Codec

variable {α β : Type} (c : Codec α)

instance : text.Tidy := ⟨fun _ => trivial⟩

instance : flag.Tidy := ⟨fun _ => trivial⟩

instance : int32.Tidy := ⟨fun _ => trivial⟩

instance (f : α → β) (g : β → α) [c.Tidy] : (c.imap f g).Tidy := ⟨fun x => Tidy.normal_write (g x)⟩

instance [c.Tidy] : c.nullable.Tidy where
  normal_write x := by
    cases x with
    | none => exact trivial
    | some x => exact Tidy.normal_write (c := c) x

instance [c.Tidy] : c.table.Tidy where
  normal_write m := by
    refine ⟨List.pairwise_map.2 m.ordered, Json.normalMembers_iff.2 fun e he => ?_⟩
    obtain ⟨e, -, rfl⟩ := List.mem_map.1 he
    exact Tidy.normal_write e.2

instance {ρ σ : Type} (style : Style) (columns : Columns ρ σ) (row : α → ρ) (ofRow : ρ → α) (note : Option String)
    [columns.Tidy] : (record style columns row ofRow note).Tidy :=
  ⟨fun x => Json.normal_object (Columns.Tidy.normal_write (row x))⟩

end Codec

/-! ## Columns -/

namespace Column

variable {α : Type} (name : String) (c : Codec α) (note : Option String)

instance (absent beyond : Option α) (omitted : α → Bool) [c.Tidy] : (Column.mk name c absent beyond omitted note).Tidy :=
  ⟨Codec.Tidy.normal_write⟩

instance : (text name note).Tidy := ⟨Codec.Tidy.normal_write (c := Codec.text)⟩

instance : (flag name note).Tidy := ⟨Codec.Tidy.normal_write (c := Codec.flag)⟩

instance : (int32 name note).Tidy := ⟨Codec.Tidy.normal_write (c := Codec.int32)⟩

instance [c.Tidy] : (table name c note).Tidy := ⟨Codec.Tidy.normal_write (c := c.table)⟩

instance [c.Tidy] : (optional name c note).Tidy := ⟨Codec.Tidy.normal_write (c := c.nullable)⟩

instance [Inhabited α] [c.Tidy] : (nested name c note).Tidy := ⟨Codec.Tidy.normal_write (c := c)⟩

end Column

namespace Columns

instance : Columns.nil.Tidy := ⟨fun _ _ hm => absurd hm List.not_mem_nil⟩

instance {α ρ σ : Type} (c : Column α) (rest : Columns ρ σ) [c.Tidy] [rest.Tidy] : (Columns.cons c rest).Tidy where
  normal_write row m hm := by
    rw [write] at hm
    split at hm
    · exact Tidy.normal_write row.2 m hm
    · rcases List.mem_cons.1 hm with rfl | hm
      · exact Column.Tidy.normal_write row.1
      · exact Tidy.normal_write row.2 m hm

end Columns

/-! ## The schemas -/

instance : Quantity.codec.Tidy := ⟨fun _ => trivial⟩

instance : Phase.codec.Tidy := by unfold Phase.codec; infer_instance

instance : Reason.codec.Tidy := by unfold Reason.codec; infer_instance

instance : BackupStatus.codec.Tidy := by unfold BackupStatus.codec; infer_instance

instance : Status.codec.Tidy := by unfold Status.codec; infer_instance

namespace Legacy

instance : IntegrationSpec.codec.Tidy := by unfold IntegrationSpec.codec; infer_instance

instance : Resources.codec.Tidy := by unfold Resources.codec; infer_instance

instance : ResourcesWithVolume.codec.Tidy := by unfold ResourcesWithVolume.codec; infer_instance

instance : ServerFeatures.codec.Tidy := by unfold ServerFeatures.codec; infer_instance

instance : ServerConfiguration.codec.Tidy := by unfold ServerConfiguration.codec; infer_instance

instance : MetaConfiguration.codec.Tidy := by unfold MetaConfiguration.codec; infer_instance

instance : DbConfiguration.codec.Tidy := by unfold DbConfiguration.codec; infer_instance

instance : PrometheusConfiguration.codec.Tidy := by unfold PrometheusConfiguration.codec; infer_instance

instance : GrafanaConfiguration.codec.Tidy := by unfold GrafanaConfiguration.codec; infer_instance

instance : OauthConfiguration.codec.Tidy := by unfold OauthConfiguration.codec; infer_instance

instance : ComponentsSpec.codec.Tidy := by unfold ComponentsSpec.codec; infer_instance

instance : Spec.codec.Tidy := by unfold Spec.codec; infer_instance

end Legacy

namespace Canonical

instance : Resources.codec.Tidy := by unfold Resources.codec; infer_instance

instance : AddonSpec.codec.Tidy := by unfold AddonSpec.codec; infer_instance

instance : JaegerConfiguration.codec.Tidy := by unfold JaegerConfiguration.codec; infer_instance

instance : DvConfiguration.codec.Tidy := by unfold DvConfiguration.codec; infer_instance

instance : PublicApiConfiguration.codec.Tidy := by unfold PublicApiConfiguration.codec; infer_instance

instance : Addons.codec.Tidy := by unfold Addons.codec; infer_instance

instance : BackupConfig.codec.Tidy := by unfold BackupConfig.codec; infer_instance

instance : OauthConfiguration.codec.Tidy := by unfold OauthConfiguration.codec; infer_instance

instance : ResourcesWithVolume.codec.Tidy := by unfold ResourcesWithVolume.codec; infer_instance

instance : ResourcesWithPersistentVolume.codec.Tidy := by unfold ResourcesWithPersistentVolume.codec; infer_instance

instance : VolumeOnlyResources.codec.Tidy := by unfold VolumeOnlyResources.codec; infer_instance

instance : ServerFeatures.codec.Tidy := by unfold ServerFeatures.codec; infer_instance

instance : ServerConfiguration.codec.Tidy := by unfold ServerConfiguration.codec; infer_instance

instance : MetaConfiguration.codec.Tidy := by unfold MetaConfiguration.codec; infer_instance

instance : DatabaseConfiguration.codec.Tidy := by unfold DatabaseConfiguration.codec; infer_instance

instance : PrometheusConfiguration.codec.Tidy := by unfold PrometheusConfiguration.codec; infer_instance

instance : GrafanaConfiguration.codec.Tidy := by unfold GrafanaConfiguration.codec; infer_instance

instance : UpgradeConfiguration.codec.Tidy := by unfold UpgradeConfiguration.codec; infer_instance

instance : ComponentsSpec.codec.Tidy := by unfold ComponentsSpec.codec; infer_instance

instance : Spec.codec.Tidy := by unfold Spec.codec; infer_instance

end Canonical

instance : Legacy.kind.spec.Tidy := inferInstanceAs Legacy.Spec.codec.Tidy

instance : Canonical.kind.spec.Tidy := inferInstanceAs Canonical.Spec.codec.Tidy

/-- a resource is written as a normal value when its metadata is -/
theorem Kind.normal_write {σ : Type} (k : Kind σ) [k.spec.Tidy] {x : Resource σ}
    (h : (Metadata.codec.write x.metadata).Normal) : (k.write x).Normal := by
  obtain ⟨metadata, spec, status⟩ := x
  have hspec : (k.spec.write spec).Normal := Codec.Tidy.normal_write spec
  have hstatus : ∀ s, (Status.codec.write s).Normal := Codec.Tidy.normal_write
  have hfields : (k.fields.write ⟨metadata, spec, status⟩).Normal := by
    refine Json.normal_object fun m hm => ?_
    cases status with
    | none =>
      rcases List.mem_cons.1 hm with rfl | hm
      · exact h
      · obtain rfl := List.mem_singleton.1 hm
        exact hspec
    | some s =>
      rcases List.mem_cons.1 hm with rfl | hm
      · exact h
      · rcases List.mem_cons.1 hm with rfl | hm
        · exact hspec
        · obtain rfl := List.mem_singleton.1 hm
          exact hstatus s
  have hlabel : (Json.str k.version.apiVersion).Normal := trivial
  have hkind : (Json.str SchemaVersion.kind).Normal := trivial
  exact Json.normal_set _ (Json.normal_set _ hfields hlabel) hkind

end MigrationOperator
