/-
Resources are read back from what is written.

The specs of both schema versions are lawful without condition. A status is kept when its phase and reason are the ones
that their texts stand for (`Status.Regular`), and a resource is kept with its metadata and status, under whatever label
it stands (`Kind.decode_of_shows`).
-/
import MigrationOperator.Codec.Lawful
import MigrationOperator.Resource.Canonical

namespace MigrationOperator

open Column (keeps_of text_keeps flag_keeps int32_keeps table_keeps optional_keeps nested_keeps required_keeps)

/-! ## Status -/

/-- the phase its text stands for -/
def Phase.Regular (p : Phase) : Prop := ofString p.asString = p

instance (p : Phase) : Decidable p.Regular := inferInstanceAs (Decidable (_ = _))

/-- the reason its text stands for -/
def Reason.Regular (r : Reason) : Prop := ofString r.asString = r

instance (r : Reason) : Decidable r.Regular := inferInstanceAs (Decidable (_ = _))

theorem Phase.regular_ofString (s : String) : (ofString s).Regular := by rw [Regular, asString_ofString]

theorem Reason.regular_ofString (s : String) : (ofString s).Regular := by rw [Regular, asString_ofString]

theorem BackupStatus.eq_default {b : BackupStatus} (h : b.isEmpty) : b = default := by
  obtain ⟨next, previous⟩ := b
  simp_all [isEmpty]
  rfl

theorem BackupStatus.lawful_codec : BackupStatus.codec.Lawful := fun _ =>
  Codec.record_keeps (by decide) ⟨text_keeps .., text_keeps .., trivial⟩ rfl

namespace Status

/-- phase and reason are the ones their texts stand for -/
structure Regular (x : Status) : Prop where
  phase : x.phase.Regular
  reason : x.reason.Regular

theorem codec_keeps {x : Status} (h : x.Regular) : codec.Keeps x :=
  Codec.record_keeps (by decide)
    ⟨keeps_of (Codec.imap_keeps rfl h.phase) fun hp => congrArg some (of_decide_eq_true hp).symm, int32_keeps ..,
      optional_keeps _ _ fun _ _ => ⟨rfl, nofun⟩, flag_keeps ..,
      keeps_of (Codec.imap_keeps rfl h.reason) fun hr => congrArg some (of_decide_eq_true hr).symm, text_keeps ..,
      text_keeps .., text_keeps ..,
      keeps_of (BackupStatus.lawful_codec _) fun hb => congrArg some (BackupStatus.eq_default hb).symm, trivial⟩ rfl

end Status

/-! ## The legacy schema -/

theorem lawful_quantity : Quantity.codec.Lawful := fun _ => rfl

namespace Legacy

theorem IntegrationSpec.lawful_codec : codec.Lawful := fun _ =>
  Codec.record_keeps (by decide)
    ⟨optional_keeps _ _ fun y _ => ⟨Codec.lawful_int32 y, nofun⟩,
      optional_keeps _ _ fun y _ => ⟨Codec.lawful_int32 y, nofun⟩, trivial⟩ rfl

theorem Resources.lawful_codec : codec.Lawful := fun _ =>
  Codec.record_keeps (by decide)
    ⟨optional_keeps _ _ fun y _ => ⟨Codec.lawful_table lawful_quantity y, nofun⟩,
      optional_keeps _ _ fun y _ => ⟨Codec.lawful_table lawful_quantity y, nofun⟩, trivial⟩ rfl

theorem ResourcesWithVolume.lawful_codec : codec.Lawful := fun _ =>
  Codec.record_keeps (by decide)
    ⟨optional_keeps _ _ fun y _ => ⟨Codec.lawful_table lawful_quantity y, nofun⟩,
      optional_keeps _ _ fun y _ => ⟨Codec.lawful_table lawful_quantity y, nofun⟩, text_keeps .., trivial⟩ rfl

theorem ServerFeatures.lawful_codec : codec.Lawful := fun _ =>
  Codec.record_keeps (by decide) ⟨flag_keeps .., text_keeps .., trivial⟩ rfl

theorem ServerConfiguration.lawful_codec : codec.Lawful := fun _ =>
  Codec.record_keeps (by decide)
    ⟨nested_keeps _ _ (Resources.lawful_codec _), nested_keeps _ _ (ServerFeatures.lawful_codec _), trivial⟩ rfl

theorem MetaConfiguration.lawful_codec : codec.Lawful := fun _ =>
  Codec.record_keeps (by decide) ⟨nested_keeps _ _ (ResourcesWithVolume.lawful_codec _), trivial⟩ rfl

theorem DbConfiguration.lawful_codec : codec.Lawful := fun _ =>
  Codec.record_keeps (by decide)
    ⟨text_keeps .., text_keeps .., text_keeps .., nested_keeps _ _ (ResourcesWithVolume.lawful_codec _), trivial⟩ rfl

theorem PrometheusConfiguration.lawful_codec : codec.Lawful := fun _ =>
  Codec.record_keeps (by decide) ⟨nested_keeps _ _ (ResourcesWithVolume.lawful_codec _), trivial⟩ rfl

theorem GrafanaConfiguration.lawful_codec : codec.Lawful := fun _ =>
  Codec.record_keeps (by decide) ⟨nested_keeps _ _ (Resources.lawful_codec _), trivial⟩ rfl

theorem OauthConfiguration.lawful_codec : codec.Lawful := fun _ =>
  Codec.record_keeps (by decide) ⟨optional_keeps _ _ fun _ _ => ⟨rfl, nofun⟩, trivial⟩ rfl

theorem ComponentsSpec.lawful_codec : codec.Lawful := fun _ =>
  Codec.record_keeps (by decide)
    ⟨nested_keeps _ _ (ServerConfiguration.lawful_codec _), nested_keeps _ _ (MetaConfiguration.lawful_codec _),
      nested_keeps _ _ (DbConfiguration.lawful_codec _), nested_keeps _ _ (PrometheusConfiguration.lawful_codec _),
      nested_keeps _ _ (GrafanaConfiguration.lawful_codec _), nested_keeps _ _ (OauthConfiguration.lawful_codec _),
      trivial⟩ rfl

theorem Spec.lawful_codec : codec.Lawful := fun _ =>
  Codec.record_keeps (by decide)
    ⟨text_keeps .., optional_keeps _ _ fun _ _ => ⟨rfl, nofun⟩, optional_keeps _ _ fun _ _ => ⟨rfl, nofun⟩,
      optional_keeps _ _ fun _ _ => ⟨rfl, nofun⟩, text_keeps .., nested_keeps _ _ (IntegrationSpec.lawful_codec _),
      text_keeps .., nested_keeps _ _ (ComponentsSpec.lawful_codec _), text_keeps .., text_keeps .., text_keeps ..,
      table_keeps _ _ fun e _ => Codec.lawful_table Codec.lawful_text e.2,
      table_keeps _ _ fun e _ => Codec.lawful_text e.2, trivial⟩ rfl

end Legacy

/-! ## The canonical schema -/

namespace Canonical

theorem Resources.lawful_codec : codec.Lawful := fun _ =>
  Codec.record_keeps (by decide) ⟨text_keeps .., trivial⟩ rfl

theorem AddonSpec.lawful_codec : codec.Lawful := fun _ =>
  Codec.record_keeps (by decide) ⟨flag_keeps .., trivial⟩ rfl

theorem JaegerConfiguration.lawful_codec : codec.Lawful := fun _ =>
  Codec.record_keeps (by decide)
    ⟨flag_keeps .., flag_keeps .., flag_keeps .., text_keeps .., text_keeps .., text_keeps .., text_keeps .., trivial⟩
    rfl

theorem DvConfiguration.lawful_codec : codec.Lawful := fun _ =>
  Codec.record_keeps (by decide) ⟨flag_keeps .., nested_keeps _ _ (Resources.lawful_codec _), trivial⟩ rfl

theorem PublicApiConfiguration.lawful_codec : codec.Lawful := fun _ =>
  Codec.record_keeps (by decide) ⟨flag_keeps .., text_keeps .., flag_keeps .., trivial⟩ rfl

theorem Addons.lawful_codec : codec.Lawful := fun _ =>
  Codec.record_keeps (by decide)
    ⟨nested_keeps _ _ (JaegerConfiguration.lawful_codec _), nested_keeps _ _ (AddonSpec.lawful_codec _),
      nested_keeps _ _ (AddonSpec.lawful_codec _), nested_keeps _ _ (AddonSpec.lawful_codec _),
      nested_keeps _ _ (DvConfiguration.lawful_codec _), nested_keeps _ _ (AddonSpec.lawful_codec _),
      nested_keeps _ _ (PublicApiConfiguration.lawful_codec _), trivial⟩ rfl

theorem BackupConfig.lawful_codec : codec.Lawful := fun _ =>
  Codec.record_keeps (by decide) ⟨text_keeps .., trivial⟩ rfl

theorem OauthConfiguration.lawful_codec : codec.Lawful := fun _ =>
  Codec.record_keeps (by decide) ⟨flag_keeps .., text_keeps .., trivial⟩ rfl

theorem ResourcesWithVolume.lawful_codec : codec.Lawful := fun _ =>
  Codec.record_keeps (by decide) ⟨text_keeps .., text_keeps .., trivial⟩ rfl

theorem ResourcesWithPersistentVolume.lawful_codec : codec.Lawful := fun _ =>
  Codec.record_keeps (by decide)
    ⟨text_keeps .., text_keeps .., text_keeps .., text_keeps .., text_keeps ..,
      table_keeps _ _ fun e _ => Codec.lawful_text e.2, trivial⟩ rfl

theorem VolumeOnlyResources.lawful_codec : codec.Lawful := fun _ =>
  Codec.record_keeps (by decide) ⟨text_keeps .., trivial⟩ rfl

theorem ServerFeatures.lawful_codec : codec.Lawful := fun _ =>
  Codec.record_keeps (by decide)
    ⟨int32_keeps .., int32_keeps .., flag_keeps ..,
      optional_keeps _ _ fun y _ => ⟨Codec.lawful_table Codec.lawful_text y, nofun⟩, text_keeps .., trivial⟩ rfl

theorem ServerConfiguration.lawful_codec : codec.Lawful := fun _ =>
  Codec.record_keeps (by decide)
    ⟨nested_keeps _ _ (Resources.lawful_codec _), nested_keeps _ _ (ServerFeatures.lawful_codec _), trivial⟩ rfl

theorem MetaConfiguration.lawful_codec : codec.Lawful := fun _ =>
  Codec.record_keeps (by decide) ⟨nested_keeps _ _ (ResourcesWithVolume.lawful_codec _), trivial⟩ rfl

theorem DatabaseConfiguration.lawful_codec : codec.Lawful := fun _ =>
  Codec.record_keeps (by decide)
    ⟨text_keeps .., text_keeps .., text_keeps .., text_keeps ..,
      nested_keeps _ _ (ResourcesWithPersistentVolume.lawful_codec _), trivial⟩ rfl

theorem PrometheusConfiguration.lawful_codec : codec.Lawful := fun _ =>
  Codec.record_keeps (by decide) ⟨text_keeps .., nested_keeps _ _ (ResourcesWithVolume.lawful_codec _), trivial⟩ rfl

theorem GrafanaConfiguration.lawful_codec : codec.Lawful := fun _ =>
  Codec.record_keeps (by decide) ⟨nested_keeps _ _ (Resources.lawful_codec _), trivial⟩ rfl

theorem UpgradeConfiguration.lawful_codec : codec.Lawful := fun _ =>
  Codec.record_keeps (by decide) ⟨nested_keeps _ _ (VolumeOnlyResources.lawful_codec _), trivial⟩ rfl

theorem ComponentsSpec.lawful_codec : codec.Lawful := fun _ =>
  Codec.record_keeps (by decide)
    ⟨nested_keeps _ _ (OauthConfiguration.lawful_codec _), nested_keeps _ _ (ServerConfiguration.lawful_codec _),
      nested_keeps _ _ (MetaConfiguration.lawful_codec _), nested_keeps _ _ (DatabaseConfiguration.lawful_codec _),
      nested_keeps _ _ (PrometheusConfiguration.lawful_codec _), nested_keeps _ _ (GrafanaConfiguration.lawful_codec _),
      nested_keeps _ _ (UpgradeConfiguration.lawful_codec _), trivial⟩ rfl

theorem Spec.lawful_codec : codec.Lawful := fun _ =>
  Codec.record_keeps (by decide)
    ⟨nested_keeps _ _ (BackupConfig.lawful_codec _), text_keeps .., flag_keeps ..,
      nested_keeps _ _ (ComponentsSpec.lawful_codec _), nested_keeps _ _ (Addons.lawful_codec _),
      nested_keeps _ _ (Codec.lawful_flag _), trivial⟩ rfl

end Canonical

/-! ## Resources -/

namespace Kind

variable {σ : Type}

/-- the members of an object, whatever it is labelled and whatever else it holds, show a resource -/
structure Shows (k : Kind σ) (x : Resource σ) (ms : List (String × Json)) : Prop where
  metadata : Entries.under "metadata" ms = [Metadata.codec.write x.metadata]
  spec : Entries.under "spec" ms = [k.spec.write x.spec]
  status : Entries.under "status" ms = x.status.toList.map Status.codec.write

/-- a resource is decoded from every object that shows it -/
theorem decode_of_shows {k : Kind σ} {x : Resource σ} {ms : List (String × Json)}
    (hmetadata : Metadata.codec.Keeps x.metadata) (hspec : k.spec.Keeps x.spec)
    (hstatus : ∀ s, x.status = some s → s.Regular) (h : k.Shows x ms) : k.codec.decode (.obj ms) = .ok x := by
  have hnames : ["metadata", "spec", "status"].Nodup := by decide
  show k.fields.read (.obj (Json.docMembers ms) .measured) = .ok x
  unfold fields
  refine Codec.record_read_of_shows hnames
    ⟨required_keeps _ hmetadata, required_keeps _ hspec,
      optional_keeps "status" none fun s hs => ⟨Status.codec_keeps (hstatus s hs), nofun⟩, trivial⟩ rfl
    (Columns.shows_docMembers rfl fun n hn => ?_) rfl
  simp only [Columns.names, Column.required, Column.optional, List.mem_cons, List.not_mem_nil, or_false] at hn
  rcases hn with rfl | rfl | rfl
  · rw [h.metadata]
    cases x.status <;> rfl
  · rw [h.spec]
    cases x.status <;> rfl
  · rw [h.status]
    cases x.status <;> rfl

/-- the object that is written shows the resource -/
theorem shows_write (k : Kind σ) (x : Resource σ) : k.Shows x (k.write x).members := by
  obtain ⟨metadata, spec, status⟩ := x
  let row := [("metadata", Metadata.codec.write metadata), ("spec", k.spec.write spec)] ++
    status.toList.map fun s => ("status", Status.codec.write s)
  have hwrite : (k.write ⟨metadata, spec, status⟩).members =
      Entries.insert "kind" (.str SchemaVersion.kind)
        (Entries.insert "apiVersion" (.str k.version.apiVersion) (Entries.ofList row)) := by
    cases status <;> rfl
  have hrow : (row.map Prod.fst).Nodup := by
    cases status <;> simp [row]
  have hunder : ∀ n, n ≠ "apiVersion" → n ≠ "kind" →
      Entries.under n (k.write ⟨metadata, spec, status⟩).members = Entries.under n row := by
    intro n h1 h2
    rw [hwrite, Entries.under_insert _ _ _ (Entries.ordered_insert _ _ (Entries.ordered_ofList _)), if_neg h2,
      Entries.under_insert _ _ _ (Entries.ordered_ofList _), if_neg h1, Entries.under_ofList hrow]
  constructor
  · rw [hunder _ (by decide) (by decide)]
    cases status <;> rfl
  · rw [hunder _ (by decide) (by decide)]
    cases status <;> rfl
  · rw [hunder _ (by decide) (by decide)]
    cases status <;> rfl

theorem codec_keeps {k : Kind σ} {x : Resource σ} (hmetadata : Metadata.codec.Keeps x.metadata)
    (hspec : k.spec.Keeps x.spec) (hstatus : ∀ s, x.status = some s → s.Regular) : k.codec.Keeps x :=
  decode_of_shows hmetadata hspec hstatus (k.shows_write x)

end Kind

end MigrationOperator
