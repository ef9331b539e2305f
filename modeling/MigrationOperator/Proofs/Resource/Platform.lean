/-
The metadata that the platform writes is read back.

`Metadata.codec_keeps` needs no more than what holds of all metadata that a server writes (`Metadata.Regular`): a moment has
a year of four digits, and what a writer manages is a value other than null. Names, labels, annotations, owners and
revisions may be anything.
-/
import MigrationOperator.Resource.Lawful
import MigrationOperator.Proofs.Time.Text

namespace MigrationOperator

open Column (optional_keeps)

theorem Column.always_keeps (name x : String) : (Column.always name).Keeps x :=
  keeps_of (Codec.imap_keeps rfl rfl) nofun

theorem OwnerReference.lawful_codec : codec.Lawful := fun _ =>
  Codec.record_keeps (by decide)
    ⟨Column.always_keeps .., optional_keeps _ _ fun _ _ => ⟨rfl, nofun⟩, optional_keeps _ _ fun _ _ => ⟨rfl, nofun⟩,
      Column.always_keeps .., Column.always_keeps .., Column.always_keeps .., trivial⟩ rfl

/-- what is managed is a value that is read as it stands, and the moment of it is written in four digits -/
structure ManagedFields.Regular (m : ManagedFields) : Prop where
  fields : ∀ j, m.fields = some j → j.Normal ∧ j ≠ .null
  time : ∀ t, m.time = some t → t.Regular

theorem ManagedFields.codec_keeps {m : ManagedFields} (h : m.Regular) : codec.Keeps m := by
  have htext : ∀ name (x : Option String), (Column.optional name .text).Keeps x := fun _ _ =>
    optional_keeps _ _ fun _ _ => ⟨rfl, nofun⟩
  have hfields : (Column.optional "fieldsV1" .value).Keeps m.fields :=
    optional_keeps _ _ fun j hj => ⟨Codec.value_keeps (h.fields j hj).1, (h.fields j hj).2⟩
  have htime : (Column.optional "time" Timestamp.codec).Keeps m.time :=
    optional_keeps _ _ fun t ht => ⟨Timestamp.codec_keeps (h.time t ht), nofun⟩
  exact Codec.record_keeps (by decide)
    ⟨htext _ _, htext _ _, hfields, htext _ _, htext _ _, htext _ _, htime, trivial⟩ rfl

namespace Metadata

/-- metadata as a server writes it: moments have years of four digits -/
structure Regular (m : Metadata) : Prop where
  creation : ∀ t, m.creationTimestamp = some t → t.Regular
  deletion : ∀ t, m.deletionTimestamp = some t → t.Regular
  managed : ∀ fs, m.managedFields = some fs → ∀ f ∈ fs, f.Regular

/-- **Metadata is read back.** -/
theorem codec_keeps {m : Metadata} (h : m.Regular) : codec.Keeps m := by
  have htext : ∀ name (x : Option String), (Column.optional name .text).Keeps x := fun _ _ =>
    optional_keeps _ _ fun _ _ => ⟨rfl, nofun⟩
  have hint : ∀ name (x : Option Int64), (Column.optional name .int64).Keeps x := fun _ _ =>
    optional_keeps _ _ fun n _ => ⟨Codec.lawful_int64 n, nofun⟩
  have htable : ∀ name (x : Option (StringMap String)), (Column.optional name (.table .text)).Keeps x := fun _ _ =>
    optional_keeps _ _ fun t _ => ⟨Codec.lawful_table Codec.lawful_text t, nofun⟩
  have htime : ∀ name (x : Option Timestamp), (∀ t, x = some t → t.Regular) →
      (Column.optional name Timestamp.codec).Keeps x := fun _ _ hx =>
    optional_keeps _ _ fun t ht => ⟨Timestamp.codec_keeps (hx t ht), nofun⟩
  have hfinalizers : (Column.optional "finalizers" (.list .text)).Keeps m.finalizers :=
    optional_keeps _ _ fun _ _ => ⟨Codec.list_keeps fun x _ => Codec.lawful_text x, nofun⟩
  have howners : (Column.optional "ownerReferences" (.list OwnerReference.codec)).Keeps m.ownerReferences :=
    optional_keeps _ _ fun _ _ => ⟨Codec.list_keeps fun x _ => OwnerReference.lawful_codec x, nofun⟩
  have hmanaged : (Column.optional "managedFields" (.list ManagedFields.codec)).Keeps m.managedFields :=
    optional_keeps _ _ fun fs hfs => ⟨Codec.list_keeps fun f hf => ManagedFields.codec_keeps (h.managed fs hfs f hf), nofun⟩
  exact Codec.record_keeps (by decide)
    ⟨htable _ _, htime _ _ h.creation, hint _ _, htime _ _ h.deletion, hfinalizers, htext _ _, hint _ _, htable _ _,
      hmanaged, htext _ _, htext _ _, howners, htext _ _, htext _ _, htext _ _, trivial⟩ rfl

end Metadata

end MigrationOperator
