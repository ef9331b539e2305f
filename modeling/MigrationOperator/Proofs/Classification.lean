/-
Written resources are told apart and read back.

A canonical spec always holds `forceMigration`, a legacy one always holds `integration`, and each schema refuses the
other's member, so what is written under one schema never decodes under the other (`Legacy.decode_canonical_ne`,
`Canonical.decode_legacy_ne`). Together with the round trip through an object without a schema this gives
`classify_dress_write`: a resource is classified as itself from its document, however that is labelled and whatever
unknown members it has.
-/
import MigrationOperator.Proofs.Resource.Document
import MigrationOperator.Proofs.Resource.Metadata
import MigrationOperator.Proofs.Codec.Tidy

namespace MigrationOperator

/-! ## Separation of the schemas -/

/-- the flag is written even when it is off -/
theorem Canonical.find?_forceMigration (s : Canonical.Spec) :
    Entries.find? "forceMigration" (Canonical.Spec.codec.write s).members = some (.bool s.forceMigration) :=
  (Codec.find?_write_record (by decide) s "forceMigration").trans rfl

theorem Legacy.find?_integration (s : Legacy.Spec) :
    Entries.find? "integration" (Legacy.Spec.codec.write s).members = some (IntegrationSpec.codec.write s.integration) :=
  (Codec.find?_write_record (by decide) s "integration").trans rfl

/-- a canonical spec never decodes as a legacy one -/
theorem Legacy.decode_canonical_ne (s : Canonical.Spec) (x : Legacy.Spec) :
    Legacy.Spec.codec.decode (Canonical.Spec.codec.write s) ≠ .ok x :=
  Codec.decode_record_ne_ok rfl (by decide) (Entries.ordered_ofList _)
    (Entries.mem_keys_of_find? (Canonical.find?_forceMigration s)) (by decide) x

/-- a legacy spec never decodes as a canonical one -/
theorem Canonical.decode_legacy_ne (s : Legacy.Spec) (x : Canonical.Spec) :
    Canonical.Spec.codec.decode (Legacy.Spec.codec.write s) ≠ .ok x :=
  Codec.decode_record_ne_ok rfl (by decide) (Entries.ordered_ofList _)
    (Entries.mem_keys_of_find? (Legacy.find?_integration s)) (by decide) x

/-! ## Open phases and reasons -/

/-- in an enumeration that is left open, a value is the one its text stands for unless it is an unknown one with the text
of another -/
theorem regular_iff_of_open {α : Type} {asString : α → String} {ofString : String → α} {other : String → α}
    (htext : ∀ s, asString (ofString s) = s)
    (hasString : ∀ s, asString (other s) = s) (hnamed : ∀ q, (∀ s, q ≠ other s) → ofString (asString q) = q) (p : α) :
    ofString (asString p) = p ↔ ∀ s, p = other s → ∀ q, asString q = s → q = other s := by
  constructor
  · rintro hp s rfl q hq
    by_cases hunknown : ∃ t, q = other t
    · obtain ⟨t, rfl⟩ := hunknown
      rw [hasString] at hq
      rw [hq]
    · have hregular : ofString (asString q) = q := hnamed q fun t ht => hunknown ⟨t, ht⟩
      rw [hasString] at hp
      rw [← hregular, hq, hp]
  · intro h
    by_cases hunknown : ∃ s, p = other s
    · obtain ⟨s, rfl⟩ := hunknown
      rw [hasString]
      exact h s rfl (ofString s) (htext s)
    · exact hnamed p fun s hs => hunknown ⟨s, hs⟩

theorem Phase.regular_iff {p : Phase} : p.Regular ↔ ∀ s, p = .other s → ∀ q : Phase, q.asString = s → q = .other s := by
  refine regular_iff_of_open asString_ofString (fun _ => rfl) (fun q hq => ?_) p
  cases q with
  | other s => exact absurd rfl (hq s)
  | _ => rfl

theorem Reason.regular_iff {r : Reason} : r.Regular ↔ ∀ s, r = .other s → ∀ q : Reason, q.asString = s → q = .other s := by
  refine regular_iff_of_open asString_ofString (fun _ => rfl) (fun q hq => ?_) r
  cases q with
  | other s => exact absurd rfl (hq s)
  | _ => rfl

/-! ## Documents of written resources -/

/-- an object with labels and other members put in -/
def Json.dress (j : Json) (others : List (String × Json)) : Json := others.foldl (fun j e => j.set e.1 e.2) j

/-- members put into an object leave those of other keys as they stand -/
theorem Json.exists_dress_eq {ms : List (String × Json)} (hms : Entries.Ordered ms) (others : List (String × Json)) :
    ∃ ws, (Json.obj ms).dress others = .obj ws ∧ Entries.Ordered ws ∧
      ∀ k, (∀ e ∈ others, e.1 ≠ k) → Entries.find? k ws = Entries.find? k ms := by
  induction others generalizing ms with
  | nil => exact ⟨ms, rfl, hms, fun _ _ => rfl⟩
  | cons e others ih =>
    obtain ⟨ws, hws, hordered, hfind⟩ := ih (Entries.ordered_insert e.1 e.2 hms)
    refine ⟨ws, hws, hordered, fun k hk => ?_⟩
    rw [hfind k fun e he => hk e (List.mem_cons_of_mem _ he), Entries.find?_insert,
      if_neg (hk e List.mem_cons_self).symm]

namespace Kind

variable {σ : Type}

/-- the document of a resource, labelled anew and with other members, stands as it was written -/
theorem exists_dress_write (k : Kind σ) (x : Resource σ) {others : List (String × Json)}
    (h : ∀ e ∈ others, e.1 ∉ parts) :
    ∃ ws, (k.write x).dress others = .obj ws ∧ Entries.Ordered ws ∧
      Entries.find? "metadata" ws = some (Metadata.codec.write x.metadata) ∧
      Entries.find? "spec" ws = some (k.spec.write x.spec) ∧
      Entries.find? "status" ws = x.status.map Status.codec.write := by
  have hshows := k.shows_write x
  have hms : Entries.Ordered (k.write x).members :=
    Entries.ordered_insert _ _ (Entries.ordered_insert _ _ (Entries.ordered_ofList _))
  have hkey : ∀ n ∈ parts, ∀ e ∈ others, e.1 ≠ n := fun n hn e he hne => h e he (hne ▸ hn)
  obtain ⟨ws, hws, hordered, hfind⟩ := Json.exists_dress_eq hms others
  refine ⟨ws, hws, hordered, ?_, ?_, ?_⟩
  · rw [hfind _ (hkey _ (by simp [parts])), Entries.find?_eq_head?, hshows.metadata]
    rfl
  · rw [hfind _ (hkey _ (by simp [parts])), Entries.find?_eq_head?, hshows.spec]
    rfl
  · rw [hfind _ (hkey _ (by simp [parts])), Entries.find?_eq_head?, hshows.status]
    cases x.status <;> rfl

end Kind

/-- the document of a canonical resource never decodes as a legacy one -/
theorem Legacy.decode_dress_canonical_ne {others : List (String × Json)} (h : ∀ e ∈ others, e.1 ∉ Kind.parts)
    (x : CanonicalResource) (y : LegacyResource) :
    Legacy.kind.codec.decode ((Canonical.kind.write x).dress others) ≠ .ok y := by
  intro hy
  obtain ⟨ws, hws, hordered, -, hspec, -⟩ := Canonical.kind.exists_dress_write x h
  rw [hws] at hy
  have hread := ((Kind.decode_iff hordered).1 hy).spec
  rw [hspec] at hread
  exact Legacy.decode_canonical_ne x.spec y.spec hread

/-- the document of a legacy resource never decodes as a canonical one -/
theorem Canonical.decode_dress_legacy_ne {others : List (String × Json)} (h : ∀ e ∈ others, e.1 ∉ Kind.parts)
    (y : LegacyResource) (x : CanonicalResource) :
    Canonical.kind.codec.decode ((Legacy.kind.write y).dress others) ≠ .ok x := by
  intro hx
  obtain ⟨ws, hws, hordered, -, hspec, -⟩ := Legacy.kind.exists_dress_write y h
  rw [hws] at hx
  have hread := ((Kind.decode_iff hordered).1 hx).spec
  rw [hspec] at hread
  exact Canonical.decode_legacy_ne y.spec x.spec hread

/-- the metadata is read back, and phase and reason are the ones that their texts stand for -/
structure Resource.Faithful {σ : Type} (x : Resource σ) : Prop where
  metadata : Metadata.codec.Keeps x.metadata
  status : ∀ s, x.status = some s → s.Regular

def Classified.Faithful : Classified → Prop
  | .canonical x => x.Faithful
  | .legacy x => x.Faithful

/-- a written resource is read without a schema, and what is read decodes as the resource alone -/
theorem Kind.exists_decode_dress_write {σ : Type} {k : Kind σ} [k.spec.Tidy] {x : Resource σ} (hx : x.Faithful)
    (hspec : k.spec.Keeps x.spec) {others : List (String × Json)} (h : ∀ e ∈ others, e.1 ∉ Kind.parts) :
    ∃ d, Opaque.codec.decode ((k.write x).dress others) = .ok d ∧ k.codec.decode d.write = .ok x ∧
      ∀ {τ : Type} (k' : Kind τ) (y : Resource τ), k'.codec.decode d.write = .ok y →
        k'.codec.decode ((k.write x).dress others) = .ok y := by
  obtain ⟨ws, hws, hordered, hmetadata, hs, hst⟩ := k.exists_dress_write x h
  have hnormal : ∀ n ∈ Kind.parts, ∀ v, Entries.find? n ws = some v → n ≠ "metadata" → v.Normal := by
    intro n hn v hv hne
    simp only [Kind.parts, List.mem_cons, List.not_mem_nil, or_false] at hn
    rcases hn with rfl | rfl | rfl
    · exact absurd rfl hne
    · obtain rfl := Option.some.inj (hs.symm.trans hv)
      exact Codec.Tidy.normal_write x.spec
    · rw [hst] at hv
      obtain ⟨s, -, rfl⟩ := Option.map_eq_some_iff.1 hv
      exact Codec.Tidy.normal_write s
  obtain ⟨d, hd, -, hdecode⟩ := Opaque.exists_decode_write_iff hordered hmetadata hx.metadata hx.metadata hnormal
  have hread : k.codec.decode (.obj ws) = .ok x := by
    refine (Kind.decode_iff hordered).2 ⟨?_, ?_, ?_⟩
    · rw [hmetadata]
      exact hx.metadata
    · rw [hs]
      exact hspec
    · rw [hst]
      cases ht : x.status with
      | none => rfl
      | some s =>
        refine Codec.nullable_keeps (Status.codec_keeps (hx.status s ht)) fun h => by cases h
  refine ⟨d, by rw [hws]; exact hd, (hdecode k x).2 ⟨rfl, hread⟩, fun k' y hy => ?_⟩
  obtain ⟨hm, hy⟩ := (hdecode k' y).1 hy
  rw [hws]
  simpa [← hm] using hy

/-- a written resource is classified as itself -/
theorem exists_classify_dress_write {c : Classified} (hc : c.Faithful) {others : List (String × Json)}
    (h : ∀ e ∈ others, e.1 ∉ Kind.parts) :
    ∃ d, Opaque.codec.decode (c.write.dress others) = .ok d ∧ classify d = .ok c := by
  cases c with
  | canonical x =>
    obtain ⟨d, hd, hx, -⟩ := Kind.exists_decode_dress_write (k := Canonical.kind) hc (Canonical.Spec.lawful_codec x.spec) h
    exact ⟨d, hd, by rw [classify, classifyJson, hx]⟩
  | legacy y =>
    obtain ⟨d, hd, hy, hother⟩ := Kind.exists_decode_dress_write (k := Legacy.kind) hc (Legacy.Spec.lawful_codec y.spec) h
    refine ⟨d, hd, ?_⟩
    -- the canonical schema is tried first, and has to refuse before the legacy one is asked
    cases hcanonical : Canonical.kind.codec.decode d.write with
    | ok x => exact absurd (hother Canonical.kind x hcanonical) (Canonical.decode_dress_legacy_ne h y x)
    | error e => rw [classify, classifyJson, hcanonical, hy]

/-- **Written resources are told apart and read back.** However the document of a resource is labelled and whatever
unknown members it has: read without a schema it is classified as the resource, and it never decodes under the other
schema, even when every field is at its default. -/
theorem classify_dress_write (others : List (String × Json)) (h : ∀ e ∈ others, e.1 ∉ Kind.parts) :
    (∀ c : Classified, c.Faithful → ∃ d, Opaque.codec.decode (c.write.dress others) = .ok d ∧ classify d = .ok c) ∧
      (∀ (x : CanonicalResource) (y : LegacyResource),
        Legacy.kind.codec.decode ((Canonical.kind.write x).dress others) ≠ .ok y) ∧
      ∀ (y : LegacyResource) (x : CanonicalResource),
        Canonical.kind.codec.decode ((Legacy.kind.write y).dress others) ≠ .ok x :=
  ⟨fun _ hc => exists_classify_dress_write hc h, Legacy.decode_dress_canonical_ne h,
    Canonical.decode_dress_legacy_ne h⟩

theorem classify_dress_write_app :
    (∃ d, Opaque.codec.decode ((Canonical.kind.write ⟨{ name := some "app" }, {}, none⟩).dress
        [("apiVersion", .str "example.org/v9"), ("note", .null)]) = .ok d ∧
      classify d = .ok (.canonical ⟨{ name := some "app" }, {}, none⟩)) ∧
    ∃ d, Opaque.codec.decode ((Legacy.kind.write ⟨{ name := some "app" }, {}, some { phase := .installed }⟩).dress
        [("apiVersion", .str "example.org/v9"), ("note", .null)]) = .ok d ∧
      classify d = .ok (.legacy ⟨{ name := some "app" }, {}, some { phase := .installed }⟩) := by
  have hmetadata := Metadata.codec_keeps_identity (some "app") none none
  have hstatus : ({ phase := .installed } : Status).Regular := ⟨rfl, rfl⟩
  have hothers : ∀ e ∈ [("apiVersion", Json.str "example.org/v9"), ("note", .null)], e.1 ∉ Kind.parts := by decide
  have hread := (classify_dress_write _ hothers).1
  constructor
  · exact hread (.canonical ⟨{ name := some "app" }, {}, none⟩)
      ⟨hmetadata, fun s hs => absurd hs.symm (Option.some_ne_none s)⟩
  · refine hread (.legacy ⟨{ name := some "app" }, {}, some { phase := .installed }⟩) ⟨hmetadata, ?_⟩
    rintro s ⟨⟩
    exact hstatus

end MigrationOperator
