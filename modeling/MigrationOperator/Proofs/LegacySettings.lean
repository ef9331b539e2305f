/-
Settings of an installation, from the secret into the canonical spec.

A setting passes through two translations: the secret is read into the legacy resource that describes the installation,
and that resource is migrated into an empty canonical one. `settings_reach_canonical` gives the canonical spec at once, in
terms of what the secret holds under each key: a text is the bytes under its key read as UTF-8, and empty where there are
none or where they are no UTF-8 (`Secret.textUnder`); an integer is what the text denotes in base ten, if that fits into
32 bits (`Denotes`, `ReadAsInt32`); and all that no setting is for is at its default.
-/
import Mathlib.Data.List.Induction
import Mathlib.Data.Nat.Digits.Defs
import MigrationOperator.Proofs.Ambiguity
import MigrationOperator.Settings

namespace MigrationOperator

/-! ## Texts of a secret -/

/-- the text that a secret holds under a key, which is empty where there is none -/
def Secret.textUnder (sec : Secret) (key : String) : String :=
  match sec.data with
  | some data => ((data.get? key).bind String.fromUTF8?).getD ""
  | none => ""

namespace Settings

theorem under_texts (key : String) (es : List (String × ByteArray)) :
    Entries.under key (texts es) = (Entries.under key es).filterMap String.fromUTF8? := by
  induction es with
  | nil => rfl
  | cons e es ih =>
    obtain ⟨k, bytes⟩ := e
    unfold texts at ih ⊢
    rw [List.filterMap_cons, Entries.under_cons]
    by_cases hk : key = k
    · subst hk
      cases hbytes : String.fromUTF8? bytes with
      | none => simpa [hbytes] using ih
      | some s => simpa [hbytes, Entries.under_cons] using ih
    · cases hbytes : String.fromUTF8? bytes with
      | none => simpa [hbytes, hk] using ih
      | some s => simpa [hbytes, hk, Entries.under_cons] using ih

/-- the settings hold the texts among the bytes of the secret -/
theorem get?_values_ofSecret (sec : Secret) (key : String) :
    (ofSecret sec).values.get? key = ((sec.data.getD .empty).get? key).bind String.fromUTF8? := by
  show Entries.find? key (Entries.ofList (texts (sec.data.getD .empty).entries)) = _
  rw [Entries.find?_ofList, under_texts, Entries.under_eq_toList (sec.data.getD .empty).ordered]
  show _ = (Entries.find? key (sec.data.getD .empty).entries).bind String.fromUTF8?
  cases Entries.find? key (sec.data.getD .empty).entries with
  | none => rfl
  | some bytes => cases hbytes : String.fromUTF8? bytes <;> simp [hbytes]

/-- a setting is the text under its key -/
theorem text_ofSecret (sec : Secret) (x : Setting) : (ofSecret sec).text x = sec.textUnder x.key := by
  have htext : (ofSecret sec).text x = ((ofSecret sec).values.get? x.key).getD "" := by
    unfold text value? Settings.get?
    cases (ofSecret sec).values.get? x.key with
    | none => rfl
    | some s => by_cases hs : s = "" <;> simp [Option.filter, hs]
  rw [htext, get?_values_ofSecret]
  unfold Secret.textUnder
  cases sec.data <;> rfl

/-- a setting has a value when its text is not empty -/
theorem value?_eq (s : Settings) (x : Setting) : s.value? x = if s.text x = "" then none else some (s.text x) := by
  unfold text
  cases hv : s.value? x with
  | none => rfl
  | some t =>
    have ht : t ≠ "" := by
      unfold value? Settings.get? at hv
      simpa using (Option.filter_eq_some_iff.1 hv).2
    simp [ht]

end Settings

/-! ## Integers in text -/

/-- the value of digits in base ten, the first of which counts most -/
def decimal (cs : List Char) : Nat := Nat.ofDigits 10 (cs.reverse.map fun c => c.toNat - '0'.toNat)

/-- at least one digit, and nothing else -/
def IsNumeral (cs : List Char) : Prop := cs ≠ [] ∧ ∀ c ∈ cs, c.isDigit = true

/-- a text that denotes an integer: a numeral, which may have a sign in front -/
inductive Denotes : List Char → Int → Prop where
  | unsigned {cs : List Char} (h : IsNumeral cs) : Denotes cs (decimal cs)
  | plus {cs : List Char} (h : IsNumeral cs) : Denotes ('+' :: cs) (decimal cs)
  | minus {cs : List Char} (h : IsNumeral cs) : Denotes ('-' :: cs) (-decimal cs)

/-- the integer of 32 bits that a text denotes, and zero when it denotes none, or one that is out of range -/
structure ReadAsInt32 (s : String) (x : Int32) : Prop where
  denoted : ∀ n, Denotes s.toList n → -2147483648 ≤ n → n ≤ 2147483647 → x.toInt = n
  otherwise : (∀ n, Denotes s.toList n → n < -2147483648 ∨ 2147483647 < n) → x = 0

theorem foldl_digits (cs : List Char) : cs.foldl (fun n c => n * 10 + (c.toNat - 48)) 0 = decimal cs := by
  induction cs using List.reverseRecOn with
  | nil => rfl
  | append_singleton cs c ih =>
    rw [List.foldl_append, List.foldl_cons, List.foldl_nil, ih]
    unfold decimal
    rw [List.reverse_append, List.reverse_singleton, List.singleton_append, List.map_cons, Nat.ofDigits_cons]
    have hzero : '0'.toNat = 48 := rfl
    rw [hzero]
    omega

theorem naturalOfDigits?_eq_some_iff {cs : List Char} {n : Nat} :
    naturalOfDigits? cs = some n ↔ IsNumeral cs ∧ n = decimal cs := by
  unfold naturalOfDigits?
  have hall : cs ≠ [] ∧ cs.all Char.isDigit = true ↔ IsNumeral cs := by rw [List.all_eq_true, IsNumeral]
  rw [foldl_digits]
  split
  · rename_i h
    simp [hall.1 h, eq_comm]
  · rename_i h
    simp [hall.not.1 h]

/-- the integers that are read off texts are those that the texts denote -/
theorem integerOfText?_eq_some_iff {s : String} {n : Int} : integerOfText? s = some n ↔ Denotes s.toList n := by
  unfold integerOfText?
  generalize s.toList = cs
  have hsign : ∀ {c : Char} {cs : List Char}, IsNumeral (c :: cs) → c.isDigit = true := fun h =>
    h.2 _ List.mem_cons_self
  constructor
  · intro h
    split at h
    all_goals
      obtain ⟨m, hm, rfl⟩ := Option.map_eq_some_iff.1 h
      obtain ⟨k, hk, hcast⟩ := Option.bind_eq_some_iff.1 hm
      obtain rfl := Option.some.inj hcast
      obtain ⟨hnumeral, rfl⟩ := naturalOfDigits?_eq_some_iff.1 hk
    · exact .minus hnumeral
    · exact .plus hnumeral
    · exact .unsigned hnumeral
  · intro h
    cases h with
    | plus hnumeral => simp [naturalOfDigits?_eq_some_iff.2 ⟨hnumeral, rfl⟩]
    | minus hnumeral => simp [naturalOfDigits?_eq_some_iff.2 ⟨hnumeral, rfl⟩]
    | unsigned hnumeral =>
      split
      · exact absurd (hsign hnumeral) (by decide)
      · exact absurd (hsign hnumeral) (by decide)
      · simp [naturalOfDigits?_eq_some_iff.2 ⟨hnumeral, rfl⟩]

theorem readAsInt32_int32OfText? (s : String) : ReadAsInt32 s ((int32OfText? s).getD 0) := by
  unfold int32OfText?
  have hmin : Int32.minValue.toInt = -2147483648 := by decide
  have hmax : Int32.maxValue.toInt = 2147483647 := by decide
  rw [hmin, hmax]
  cases hs : integerOfText? s with
  | none =>
    refine ⟨fun n hn => ?_, fun _ => rfl⟩
    rw [integerOfText?_eq_some_iff.2 hn] at hs
    cases hs
  | some m =>
    have hm : Denotes s.toList m := integerOfText?_eq_some_iff.1 hs
    simp only [Option.bind_some]
    split
    · rename_i hrange
      refine ⟨fun n hn _ _ => ?_, fun hout => ?_⟩
      · obtain rfl : m = n := Option.some.inj (hs.symm.trans (integerOfText?_eq_some_iff.2 hn))
        exact Int32.toInt_ofInt_of_le (by omega) (by omega)
      · have := hout m hm
        omega
    · rename_i hrange
      refine ⟨fun n hn hlow hhigh => ?_, fun _ => rfl⟩
      obtain rfl : m = n := Option.some.inj (hs.symm.trans (integerOfText?_eq_some_iff.2 hn))
      exact absurd ⟨hlow, hhigh⟩ hrange

theorem flagOfText?_getD (s : String) : (flagOfText? s).getD false = decide (s = "true") := by
  unfold flagOfText?
  split
  · rfl
  · rfl
  · rename_i h _
    exact (decide_eq_false h).symm

/-! ## From the settings to the canonical spec -/

namespace Settings

variable {α : Type}

/-- a value that the empty text does not have may be read off the text of a setting -/
theorem bind_value? (s : Settings) (x : Setting) {f : String → Option α} (hf : f "" = none) :
    (s.value? x).bind f = f (s.text x) := by
  rw [value?_eq]
  split
  · rename_i h
    rw [h, hf]
    rfl
  · rfl

/-- a memory limit arrives as its text -/
theorem copyMemory_memoryLimits (s : Settings) (x : Setting) :
    Migration.copyMemory ((s.memoryLimits x).bind (·.get? Legacy.memoryKey)) "" = s.text x := by
  unfold memoryLimits
  rw [value?_eq]
  split
  · rename_i h
    rw [h]
    rfl
  · simp [Migration.copyMemory]

/-- the spec of a canonical resource with these settings and no others -/
def canonical (text : String → String) (limit interval : Int32) : Canonical.Spec where
  routeHostname := text "ROUTE_HOSTNAME"
  demoData := text "DEMO_DATA_ENABLED" = "true"
  components :=
    { oauth := { sarNamespace := text "SAR_PROJECT" }
      server :=
        { resources := { memory := text "SERVER_MEMORY_LIMIT" }
          features :=
            { integrationLimit := limit
              integrationStateCheckInterval := interval
              managementUrlFor3scale := text "OPENSHIFT_MANAGEMENT_URL_FOR3SCALE" } }
      metadata :=
        { resources := { memory := text "META_MEMORY_LIMIT", volumeCapacity := text "META_VOLUME_CAPACITY" } }
      database :=
        { user := text "POSTGRESQL_USER"
          name := text "POSTGRESQL_DATABASE"
          resources :=
            { memory := text "POSTGRESQL_MEMORY_LIMIT", volumeCapacity := text "POSTGRESQL_VOLUME_CAPACITY" } }
      prometheus :=
        { resources :=
            { memory := text "PROMETHEUS_MEMORY_LIMIT", volumeCapacity := text "PROMETHEUS_VOLUME_CAPACITY" } } }

/-- what a migration makes of the settings of a secret -/
theorem spec_migrated (sec : Secret) :
    Migration.spec (ofSecret sec).spec { forceMigration := true } =
      canonical sec.textUnder ((int32OfText? (sec.textUnder "MAX_INTEGRATIONS_PER_USER")).getD 0)
        ((int32OfText? (sec.textUnder "INTEGRATION_STATE_CHECK_INTERVAL")).getD 0) := by
  have hflag : flagOfText? "" = none := rfl
  have hint : int32OfText? "" = none := by decide
  simp only [Migration.spec, Migration.components, Migration.oauth, Migration.server, Migration.serverFeatures,
    Migration.database, Migration.volume, Settings.spec, Legacy.Resources.memoryLimit,
    Legacy.ResourcesWithVolume.memoryLimit, Migration.copyNonEmpty_empty, copyMemory_memoryLimits, bind_value? _ _ hflag,
    bind_value? _ _ hint, flagOfText?_getD, text_ofSecret]
  rfl

end Settings

/-- **Settings reach the right fields.** For every secret, whether or not it marks an installation, the legacy resource
that its settings describe, taken as installed, migrates into the canonical resource that stands in for it. The spec is
then the canonical one with each setting in its field and nothing else, and the version of the status is the setting of
that name. -/
theorem settings_reach_canonical (sec : Secret) (ns ns' : String) :
    ∃ y limit interval,
      let l := Migration.installed ((Settings.ofSecret sec).toResource ns)
      Migration.migrate? l (Migration.standIn l ns') = some y ∧
        y.spec = Settings.canonical sec.textUnder limit interval ∧
        ReadAsInt32 (sec.textUnder "MAX_INTEGRATIONS_PER_USER") limit ∧
        ReadAsInt32 (sec.textUnder "INTEGRATION_STATE_CHECK_INTERVAL") interval ∧
        y.status.map (·.version) = some (sec.textUnder "SYNDESIS_VERSION") := by
  refine ⟨_, _, _, if_pos rfl, Settings.spec_migrated sec, readAsInt32_int32OfText? _, readAsInt32_int32OfText? _, ?_⟩
  exact congrArg some (Settings.text_ofSecret sec .version)

end MigrationOperator
