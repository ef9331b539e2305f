/-
Strict decoding loses nothing.

Both schemas read a spec into typed values and write it from them, so a member that no field stands for, or a value that a
field drops, would be gone. `decode_spec_preserves` says that there is none: what is written holds every member of what
was read, at any depth, except for fields at their defaults, and nothing else than `forceMigration` and the structures
that are written in any case. A member that a structure does not know makes the decoding fail.
-/
import MigrationOperator.Proofs.Codec.Lossless
import MigrationOperator.Resource.Canonical

namespace MigrationOperator

/-! ## The structures of the schemas -/

/-- a record whose fields are lossless and that reads the empty object as its default -/
theorem Codec.structured_record {α ρ σ : Type} [Inhabited α] {title : String} {columns : Columns ρ σ} {row : α → ρ}
    {ofRow : ρ → α} {note : Option String} (hnames : columns.names.Nodup) (hrow : ∀ r, row (ofRow r) = r)
    (hempty : (record (.closed title) columns row ofRow note).decode (.obj []) = .ok default)
    [columns.Lossless []] : (record (.closed title) columns row ofRow note).Structured where
  toLossless := lossless_record hnames hrow
  isRecord_eq := (alike_record (.closed title)).record
  decode_empty := hempty

namespace Legacy

instance : IntegrationSpec.codec.Structured := Codec.structured_record (by decide) (fun _ => rfl) rfl

instance : Resources.codec.Structured := Codec.structured_record (by decide) (fun _ => rfl) rfl

instance : ResourcesWithVolume.codec.Structured := Codec.structured_record (by decide) (fun _ => rfl) rfl

instance : ServerFeatures.codec.Structured := Codec.structured_record (by decide) (fun _ => rfl) rfl

instance : ServerConfiguration.codec.Structured := Codec.structured_record (by decide) (fun _ => rfl) rfl

instance : MetaConfiguration.codec.Structured := Codec.structured_record (by decide) (fun _ => rfl) rfl

instance : DbConfiguration.codec.Structured := Codec.structured_record (by decide) (fun _ => rfl) rfl

instance : PrometheusConfiguration.codec.Structured := Codec.structured_record (by decide) (fun _ => rfl) rfl

instance : GrafanaConfiguration.codec.Structured := Codec.structured_record (by decide) (fun _ => rfl) rfl

instance : OauthConfiguration.codec.Structured := Codec.structured_record (by decide) (fun _ => rfl) rfl

instance : ComponentsSpec.codec.Structured := Codec.structured_record (by decide) (fun _ => rfl) rfl

instance : Spec.codec.Structured := Codec.structured_record (by decide) (fun _ => rfl) rfl

end Legacy

namespace Canonical

instance : Resources.codec.Structured := Codec.structured_record (by decide) (fun _ => rfl) rfl

instance : AddonSpec.codec.Structured := Codec.structured_record (by decide) (fun _ => rfl) rfl

instance : JaegerConfiguration.codec.Structured := Codec.structured_record (by decide) (fun _ => rfl) rfl

instance : DvConfiguration.codec.Structured := Codec.structured_record (by decide) (fun _ => rfl) rfl

instance : PublicApiConfiguration.codec.Structured := Codec.structured_record (by decide) (fun _ => rfl) rfl

instance : Addons.codec.Structured := Codec.structured_record (by decide) (fun _ => rfl) rfl

instance : BackupConfig.codec.Structured := Codec.structured_record (by decide) (fun _ => rfl) rfl

instance : OauthConfiguration.codec.Structured := Codec.structured_record (by decide) (fun _ => rfl) rfl

instance : ResourcesWithVolume.codec.Structured := Codec.structured_record (by decide) (fun _ => rfl) rfl

instance : ResourcesWithPersistentVolume.codec.Structured := Codec.structured_record (by decide) (fun _ => rfl) rfl

instance : VolumeOnlyResources.codec.Structured := Codec.structured_record (by decide) (fun _ => rfl) rfl

instance : ServerFeatures.codec.Structured := Codec.structured_record (by decide) (fun _ => rfl) rfl

instance : ServerConfiguration.codec.Structured := Codec.structured_record (by decide) (fun _ => rfl) rfl

instance : MetaConfiguration.codec.Structured := Codec.structured_record (by decide) (fun _ => rfl) rfl

instance : DatabaseConfiguration.codec.Structured := Codec.structured_record (by decide) (fun _ => rfl) rfl

instance : PrometheusConfiguration.codec.Structured := Codec.structured_record (by decide) (fun _ => rfl) rfl

instance : GrafanaConfiguration.codec.Structured := Codec.structured_record (by decide) (fun _ => rfl) rfl

instance : UpgradeConfiguration.codec.Structured := Codec.structured_record (by decide) (fun _ => rfl) rfl

instance : ComponentsSpec.codec.Structured := Codec.structured_record (by decide) (fun _ => rfl) rfl

/-- the one scalar that is written even when it is off -/
instance (note : Option String) : (Column.nested "forceMigration" Codec.flag note).Lossless ["forceMigration"] :=
  Column.lossless_nested_of_exact _ _ _ _ List.mem_cons_self rfl

instance : Spec.codec.Lossless ["forceMigration"] := Codec.lossless_record (by decide) fun _ => rfl

end Canonical

/-! ## Specs -/

/-- what decoding a value and writing it again keeps, adds and refuses -/
structure Codec.Preserves {α : Type} (c : Codec α) (extra : List String) (v : Json) : Prop where
  /-- a member that is no default is written where it stood -/
  kept : ∀ x, c.schema.Fits v → c.decode v = .ok x → c.schema.Kept v (c.write x)
  /-- what is written stood there, apart from structures and the extra fields -/
  added : ∀ x, c.schema.Fits v → c.decode v = .ok x → c.schema.Added extra v (c.write x)
  /-- a structure with a member that it does not know is refused -/
  refused : ∀ p k, c.schema.recordAt p = true → (v.at? (p ++ [k])).isSome → c.schema.at? (p ++ [k]) = none →
    ∀ x, c.decode v ≠ .ok x

theorem Codec.Lossless.preserves {α : Type} {c : Codec α} {extra : List String} [hc : c.Lossless extra] {v : Json}
    (hv : v.Normal) : c.Preserves extra v where
  kept x hfits hx := (hc.carried v x hv hfits hx).1
  added x hfits hx := (hc.carried v x hv hfits hx).2
  refused p k hrecord hsome hnone x hx := by
    have hknown := hc.known v x hv hx p k hrecord hsome
    rw [hnone] at hknown
    exact absurd hknown nofun

/-- **Strict decoding loses nothing.** Under either schema, every member of a spec that decodes is written again at the
same path with the same value, unless it is a field at its default; a structure is written as an object, and its members
in turn. Nothing else is written but structures and, under the canonical schema, `forceMigration`. A member that is
unknown to its structure, at any depth, makes the decoding fail. -/
theorem decode_spec_preserves {v : Json} (hv : v.Normal) :
    Canonical.Spec.codec.Preserves ["forceMigration"] v ∧ Legacy.Spec.codec.Preserves [] v :=
  ⟨Codec.Lossless.preserves hv, Codec.Lossless.preserves hv⟩

/-- a spec that both schemas decode -/
def plainSpec : Json := .obj [("demoData", .bool true)]

/-- and one that neither does -/
def misspelledSpec : Json := .obj [("components", .obj [("server", .obj [("feature", .obj [])])])]

theorem fits_plainSpec {s demo : Schema} (hs : s.isQuantity = false) (hdemo : s.child? "demoData" = some demo)
    (hscalar : demo.isRecord = false ∧ demo.isQuantity = false) : s.Fits plainSpec := by
  refine Schema.fits_of_members (fun _ => ⟨_, rfl⟩) (fun h => absurd (hs.symm.trans h) Bool.false_ne_true)
    fun k e he t ht => ?_
  obtain ⟨rfl, rfl⟩ := Prod.mk.inj (List.mem_singleton.1 (Entries.mem_of_find? he))
  obtain rfl := Option.some.inj (hdemo.symm.trans ht)
  refine Schema.fits_of_members (fun h => ?_) (fun h => ?_) fun k e he => by cases he
  · exact absurd (hscalar.1.symm.trans h) Bool.false_ne_true
  · exact absurd (hscalar.2.symm.trans h) Bool.false_ne_true

theorem decode_spec_preserves_plain :
    (∃ x, Canonical.Spec.codec.decode plainSpec = .ok x ∧
      (Canonical.Spec.codec.write x).at? ["demoData"] = some (.bool true)) ∧
    (∃ x, Legacy.Spec.codec.decode plainSpec = .ok x ∧
      (Legacy.Spec.codec.write x).at? ["demoData"] = some (.bool true)) ∧
    (∀ x, Canonical.Spec.codec.decode misspelledSpec ≠ .ok x) ∧
      ∀ x, Legacy.Spec.codec.decode misspelledSpec ≠ .ok x := by
  have hplain : plainSpec.Normal := by simp [plainSpec, Json.Normal, Json.NormalMembers, Entries.Ordered]
  have hmisspelled : misspelledSpec.Normal := by
    simp [misspelledSpec, Json.Normal, Json.NormalMembers, Entries.Ordered]
  have hcanonical : Canonical.Spec.codec.decode plainSpec = .ok { demoData := true } := rfl
  have hlegacy : Legacy.Spec.codec.decode plainSpec = .ok { demoData := some true } := rfl
  have hfits : Canonical.Spec.codec.schema.Fits plainSpec := fits_plainSpec rfl rfl ⟨rfl, rfl⟩
  have hfits' : Legacy.Spec.codec.schema.Fits plainSpec := fits_plainSpec rfl rfl ⟨rfl, rfl⟩
  obtain ⟨hcanonicalPlain, hlegacyPlain⟩ := decode_spec_preserves hplain
  obtain ⟨hcanonicalBad, hlegacyBad⟩ := decode_spec_preserves hmisspelled
  refine ⟨⟨_, hcanonical, ?_⟩, ⟨_, hlegacy, ?_⟩, ?_, ?_⟩
  · rcases hcanonicalPlain.kept _ hfits hcanonical ["demoData"] (.bool true) rfl with
      h | ⟨hrecord, -⟩ | ⟨-, -, -, -, hvacant⟩
    · exact h
    · cases hrecord
    · cases hvacant
  · rcases hlegacyPlain.kept _ hfits' hlegacy ["demoData"] (.bool true) rfl with
      h | ⟨hrecord, -⟩ | ⟨-, -, -, -, hvacant⟩
    · exact h
    · cases hrecord
    · cases hvacant
  · exact hcanonicalBad.refused ["components", "server"] "feature" rfl rfl rfl
  · exact hlegacyBad.refused ["components", "server"] "feature" rfl rfl rfl

end MigrationOperator
