/-
The status that a migration leaves behind.

`Migration.note` is what is written of it when there is no canonical resource yet: phase, reason, description, and the
version if there is one. It depends on the version alone, which merging it into a stored status keeps, and the merged
status is read as the stored one with phase, reason and description set (`decode_merged`). So a migration that is repeated
notes the same status again, and noting it again changes nothing (`merged_idem`).
-/
import Mathlib.Tactic.Set
import Mathlib.Tactic.SplitIfs
import MigrationOperator.Proofs.Codec.Fields
import MigrationOperator.Proofs.Codec.Tidy
import MigrationOperator.Proofs.Json.MergePatch
import MigrationOperator.Migration

namespace MigrationOperator.Migration

/-- the status that is written when there is no canonical resource yet -/
def note (old : Option Status) : Json := Status.codec.write (status old none)

/-- the version that goes into it -/
def notedVersion (old : Option Status) : String := (old.map (·.version)).getD ""

/-- nothing but the version counts -/
theorem note_congr {old old' : Option Status} (h : notedVersion old = notedVersion old') : note old = note old' := by
  have hstatus : status old none = status old' none := by
    show
      ({ ({} : Status) with version := notedVersion old, phase := .installed, reason := .migrated, description } : Status) =
      { ({} : Status) with version := notedVersion old', phase := .installed, reason := .migrated, description }
    rw [h]
  rw [note, note, hstatus]

theorem normal_note (old : Option Status) : (note old).Normal := Codec.Tidy.normal_write (c := Status.codec) _

/-- what stands in it -/
theorem find?_note (old : Option Status) (k : String) :
    Entries.find? k (note old).members =
      if k = "phase" then some (.str "Installed")
      else if k = "reason" then some (.str "Migrated")
      else if k = "description" then some (.str description)
      else if k = "version" ∧ notedVersion old ≠ "" then some (.str (notedVersion old))
      else none := by
  have hmembers : (note old).members = Entries.ofList ([("phase", .str "Installed"), ("reason", .str "Migrated"),
      ("description", .str description)] ++
        if (notedVersion old).isEmpty then [] else [("version", .str (notedVersion old))]) := rfl
  rw [hmembers, Entries.find?_ofList]
  by_cases hv : notedVersion old = ""
  · simp only [hv, Entries.under_append, Entries.under_cons]
    split_ifs <;> simp_all
  · simp only [String.isEmpty_iff, hv, if_false, Entries.under_append, Entries.under_cons]
    split_ifs <;> simp_all

/-! ## Merging it into a stored status -/

section

variable {ms : List (String × Json)}

theorem exists_merged_eq (old : Option Status) (h : (Json.obj ms).Normal) :
    ∃ ws, Json.mergePatch (note old) (.obj ms) = .obj ws ∧ (Json.obj ws).Normal := by
  have hnormal := Json.normal_mergePatch (normal_note old) h
  have hshape : Json.mergePatch (note old) (.obj ms) = .obj (Json.mergeMembers (note old).members ms) :=
    Json.mergePatch_obj (note old).members (.obj ms)
  exact ⟨_, hshape, hshape ▸ hnormal⟩

/-- what is noted replaces what stood there, and the rest stays -/
theorem get?_merged (old : Option Status) (k : String) :
    (Json.mergePatch (note old) (.obj ms)).get? k = (Entries.find? k (note old).members).or (Entries.find? k ms) := by
  have hordered : Entries.Ordered (note old).members := (normal_note old).members.1
  refine (Json.get?_mergePatch_obj hordered (.obj ms) k).trans ?_
  rw [find?_note]
  split_ifs <;> rfl

/-- a status that is read as installed says so -/
theorem find?_phase_of_decode {s : Status} (hms : Entries.Ordered ms) (h : Status.codec.decode (.obj ms) = .ok s)
    (hs : s.phase = .installed) : Entries.find? "phase" ms = some (.str "Installed") := by
  obtain ⟨⟨row, ht, rfl⟩, -⟩ := (Codec.decode_record_iff (by decide) hms).1 h
  obtain ⟨hphase, -⟩ := ht
  have hrow : row.1 = .installed := hs
  rw [hrow] at hphase
  change Column.Takes _ (Entries.find? "phase" ms) _ at hphase
  cases hfind : Entries.find? "phase" ms with
  | none =>
    rw [hfind] at hphase
    cases hphase
  | some j =>
    rw [hfind] at hphase
    cases j with
    | str t =>
      have ht : Phase.ofString t = .installed := Except.ok.inj hphase
      rw [← Phase.asString_ofString t, ht]
      rfl
    | _ => cases hphase

/-- a status that reads has the version that is read of it, or none, which is read as empty -/
theorem find?_version_of_decode {s : Status} (hms : Entries.Ordered ms) (h : Status.codec.decode (.obj ms) = .ok s) :
    Entries.find? "version" ms = some (.str s.version) ∨ Entries.find? "version" ms = none ∧ s.version = "" := by
  obtain ⟨⟨row, ht, rfl⟩, -⟩ := (Codec.decode_record_iff (by decide) hms).1 h
  obtain ⟨-, -, -, -, -, -, hversion, -⟩ := ht
  cases hfind : Entries.find? "version" ms with
  | none =>
    change Column.Takes _ (Entries.find? "version" ms) _ at hversion
    rw [hfind] at hversion
    exact Or.inr ⟨rfl, (Option.some.inj hversion).symm⟩
  | some j =>
    change Column.Takes _ (Entries.find? "version" ms) _ at hversion
    rw [hfind] at hversion
    cases j with
    | str t =>
      obtain rfl : t = _ := Except.ok.inj hversion
      exact Or.inl rfl
    | _ => exact absurd hversion nofun

/-- noting the status that was read changes phase, reason and description at most -/
theorem get?_merged_of_decode {s : Status} (hms : Entries.Ordered ms) (h : Status.codec.decode (.obj ms) = .ok s)
    {k : String} (hk : k ∉ ["phase", "reason", "description"]) :
    (Json.mergePatch (note (some s)) (.obj ms)).get? k = Entries.find? k ms := by
  simp only [List.mem_cons, List.not_mem_nil, or_false, not_or] at hk
  obtain ⟨hphase, hreason, hdescription⟩ := hk
  rw [get?_merged, find?_note, if_neg hphase, if_neg hreason, if_neg hdescription]
  by_cases hv : k = "version" ∧ notedVersion (some s) ≠ ""
  · obtain ⟨rfl, hne⟩ := hv
    rw [if_pos ⟨rfl, hne⟩]
    rcases find?_version_of_decode hms h with hversion | ⟨-, hempty⟩
    · rw [hversion]
      rfl
    · exact absurd hempty hne
  · rw [if_neg hv]
    rfl

theorem merged_idem (old : Option Status) (h : (Json.obj ms).Normal) :
    Json.mergePatch (note old) (Json.mergePatch (note old) (.obj ms)) = Json.mergePatch (note old) (.obj ms) :=
  Json.mergePatch_idem (normal_note old) h

/-- a status with what a migration of it notes is read as the same status after the migration -/
theorem decode_merged {s : Status} (hms : (Json.obj ms).Normal) (h : Status.codec.decode (.obj ms) = .ok s) :
    Status.codec.decode (Json.mergePatch (note (some s)) (.obj ms)) =
      .ok { s with phase := .installed, reason := .migrated, description } := by
  obtain ⟨⟨⟨phase, attempts, failure, force, reason, text, version, target, backup, ⟨⟩⟩, ht, rfl⟩, -⟩ :=
    (Codec.decode_record_iff (by decide) hms.1).1 h
  obtain ⟨-, hattempts, hfailure, hforce, -, -, hversion, htarget, hbackup, -⟩ := ht
  set s : Status := ⟨phase, attempts, failure, force, reason, text, version, target, backup⟩
  have hget := @get?_merged ms (some s)
  obtain ⟨ws, hws, hnormal⟩ := exists_merged_eq (some s) hms
  rw [hws] at hget ⊢
  refine (Codec.decode_record_iff (by decide) hnormal.1).2
    ⟨⟨(.installed, attempts, failure, force, .migrated, description, version, target, backup, ()), ?_, rfl⟩, nofun⟩
  have hfind : ∀ k, Entries.find? k ws = (Entries.find? k (note (some s)).members).or (Entries.find? k ms) := hget
  simp only [Columns.Takes, hfind, find?_note]
  refine ⟨rfl, hattempts, hfailure, hforce, rfl, rfl, ?_, htarget, hbackup, trivial⟩
  -- an empty version is not noted, and then the stored one is empty
  have hname : (Column.text "version").name = "version" := rfl
  have hnoted : notedVersion (some s) = version := rfl
  rw [hname] at hversion ⊢
  by_cases hv : version = ""
  · simpa [hnoted, hv] using hversion
  · simp [hnoted, hv]
    rfl

end

end MigrationOperator.Migration
