/-
Metadata is read field by field, so its name and its revision are followed through reading, writing and a new revision.

Whatever the other fields hold, an object whose metadata reads has the name and the revision that stand in it, writing
the metadata keeps both, and putting another revision changes nothing else of what is read.
-/
import MigrationOperator.Resource.Lawful
import MigrationOperator.Proofs.Codec.Fields

namespace MigrationOperator.Metadata

/-- metadata is read from objects only -/
theorem exists_obj_of_decode {j : Json} {m : Metadata} (h : codec.decode j = .ok m) : ∃ ms, j = .obj ms := by
  cases j with
  | obj ms => exact ⟨ms, rfl⟩
  | _ => exact absurd h nofun

/-- what an optional text takes -/
theorem takes_optional_text {name : String} {j : Option Json} {x : Option String}
    (h : (Column.optional name .text).Takes j x) : j.bind Json.asString? = x := by
  cases j with
  | none => exact Option.some.inj h
  | some j => cases j <;> first | exact Except.ok.inj h | exact absurd h nofun

theorem name_of_decode {ms : List (String × Json)} {m : Metadata} (hms : Entries.Ordered ms)
    (h : codec.decode (.obj ms) = .ok m) : (Entries.find? "name" ms).bind Json.asString? = m.name := by
  obtain ⟨⟨r, ht, rfl⟩, -⟩ := (Codec.decode_record_iff (by decide) hms).1 h
  exact takes_optional_text ht.2.2.2.2.2.2.2.2.2.1

theorem revision_of_decode {ms : List (String × Json)} {m : Metadata} (hms : Entries.Ordered ms)
    (h : codec.decode (.obj ms) = .ok m) :
    (Entries.find? "resourceVersion" ms).bind Json.asString? = m.resourceVersion := by
  obtain ⟨⟨r, ht, rfl⟩, -⟩ := (Codec.decode_record_iff (by decide) hms).1 h
  exact takes_optional_text ht.2.2.2.2.2.2.2.2.2.2.2.2.1

theorem namespaceName_of_decode {ms : List (String × Json)} {m : Metadata} (hms : Entries.Ordered ms)
    (h : codec.decode (.obj ms) = .ok m) : (Entries.find? "namespace" ms).bind Json.asString? = m.namespaceName := by
  obtain ⟨⟨r, ht, rfl⟩, -⟩ := (Codec.decode_record_iff (by decide) hms).1 h
  exact takes_optional_text ht.2.2.2.2.2.2.2.2.2.2.1

/-- with another revision put in, the rest is read as before -/
theorem decode_insert_revision {ms : List (String × Json)} {m : Metadata} (hms : Entries.Ordered ms)
    (h : codec.decode (.obj ms) = .ok m) (r : String) :
    codec.decode (.obj (Entries.insert "resourceVersion" (.str r) ms)) = .ok { m with resourceVersion := some r } := by
  obtain ⟨⟨⟨f1, f2, f3, f4, f5, f6, f7, f8, f9, f10, f11, f12, f13, f14, f15, ⟨⟩⟩, ht, rfl⟩, -⟩ :=
    (Codec.decode_record_iff (by decide) hms).1 h
  refine (Codec.decode_record_iff (by decide) (Entries.ordered_insert _ _ hms)).2
    ⟨⟨(f1, f2, f3, f4, f5, f6, f7, f8, f9, f10, f11, f12, some r, f14, f15, ()), ?_, rfl⟩, nofun⟩
  simp only [Columns.Takes, Column.optional, Entries.find?_insert, String.reduceEq, if_true, if_false] at ht ⊢
  obtain ⟨h1, h2, h3, h4, h5, h6, h7, h8, h9, h10, h11, h12, -, h14, h15, -⟩ := ht
  exact ⟨h1, h2, h3, h4, h5, h6, h7, h8, h9, h10, h11, h12, rfl, h14, h15, trivial⟩

/-! ## Writing metadata and reading it again -/

/-- the name and the revision are always read back -/
theorem identity_of_decode_write {m m' : Metadata} (h : codec.decode (codec.write m) = .ok m') :
    m'.name = m.name ∧ m'.resourceVersion = m.resourceVersion := by
  obtain ⟨r, ht, rfl⟩ := (Codec.decode_write_record_iff (by decide)).1 h
  have hname := (Column.takes_written_iff (Column.optional_keeps "name" none fun y _ => ⟨Codec.lawful_text y, nofun⟩)).1
    ht.2.2.2.2.2.2.2.2.2.1
  have hrevision := (Column.takes_written_iff
    (Column.optional_keeps "resourceVersion" none fun y _ => ⟨Codec.lawful_text y, nofun⟩)).1
    ht.2.2.2.2.2.2.2.2.2.2.2.2.1
  exact ⟨hname.symm, hrevision.symm⟩

/-- so is the namespace -/
theorem namespaceName_of_decode_write {m m' : Metadata} (h : codec.decode (codec.write m) = .ok m') :
    m'.namespaceName = m.namespaceName := by
  obtain ⟨r, ht, rfl⟩ := (Codec.decode_write_record_iff (by decide)).1 h
  have hnamespace := (Column.takes_written_iff
    (Column.optional_keeps "namespace" none fun y _ => ⟨Codec.lawful_text y, nofun⟩)).1
    ht.2.2.2.2.2.2.2.2.2.2.1
  exact hnamespace.symm

/-- another revision is read back with the rest -/
theorem decode_write_revision {m m' : Metadata} (h : codec.decode (codec.write m) = .ok m') (r : Option String) :
    codec.decode (codec.write { m with resourceVersion := r }) = .ok { m' with resourceVersion := r } := by
  obtain ⟨⟨f1, f2, f3, f4, f5, f6, f7, f8, f9, f10, f11, f12, f13, f14, f15, ⟨⟩⟩, ht, rfl⟩ :=
    (Codec.decode_write_record_iff (by decide)).1 h
  refine (Codec.decode_write_record_iff (by decide)).2
    ⟨(f1, f2, f3, f4, f5, f6, f7, f8, f9, f10, f11, f12, r, f14, f15, ()), ?_, rfl⟩
  obtain ⟨h1, h2, h3, h4, h5, h6, h7, h8, h9, h10, h11, h12, -, h14, h15, -⟩ := ht
  refine ⟨h1, h2, h3, h4, h5, h6, h7, h8, h9, h10, h11, h12, ?_, h14, h15, trivial⟩
  exact (Column.takes_written_iff
    (Column.optional_keeps "resourceVersion" none fun y _ => ⟨Codec.lawful_text y, nofun⟩)).2 rfl

/-- metadata of a name, a namespace and a revision is read back -/
theorem codec_keeps_identity (name namespaceName revision : Option String) :
    codec.Keeps { name, namespaceName, resourceVersion := revision } := by
  have htext : ∀ (n : String) (x : Option String), (Column.optional n .text).Keeps x := fun n x =>
    Column.optional_keeps n none fun y _ => ⟨Codec.lawful_text y, nofun⟩
  exact Codec.record_keeps (by decide)
    ⟨rfl, rfl, rfl, rfl, rfl, rfl, rfl, rfl, rfl, htext _ _, htext _ _, rfl, htext _ _, rfl, rfl, trivial⟩ rfl

/-- and what is written of it is normal -/
theorem normal_write_identity (name namespaceName revision : Option String) :
    (codec.write { name, namespaceName, resourceVersion := revision }).Normal := by
  refine Json.normal_object fun m hm => ?_
  cases name <;> cases namespaceName <;> cases revision <;>
    simp [Columns.write, Column.optional, Codec.nullable, Codec.text] at hm <;> grind [Json.Normal]

end MigrationOperator.Metadata
