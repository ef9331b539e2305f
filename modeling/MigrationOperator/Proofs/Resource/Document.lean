/-
Resources and schema-less objects, as they are read from an object in memory.

A resource is decoded from an object exactly when its metadata, spec and status are (`Kind.decode_iff`): labels and
unknown members play no part. An object that is read without a schema and written again keeps those three members
(`Opaque.exists_decode`), so each schema reads it as it reads the object (`Opaque.exists_decode_write_iff`), up to
metadata that is not read back.
-/
import MigrationOperator.Classification
import MigrationOperator.Resource.Lawful
import MigrationOperator.Proofs.Codec.Fields

namespace MigrationOperator

/-! ## Every value held in memory is read -/

namespace Json

/-- members with the keys and the normal values of others -/
inductive Follows : List (String × Json) → List (String × Json) → Prop where
  | nil : Follows [] []
  | cons {k : String} {j v : Json} {ms vs : List (String × Json)} (head : j.Normal → v = j) (tail : Follows ms vs) :
    Follows ((k, j) :: ms) ((k, v) :: vs)

mutual

theorem exists_value_doc : ∀ j : Json, ∃ v, j.doc.value = .ok v
  | .null | .bool _ | .int _ | .float _ | .str _ => ⟨_, rfl⟩
  | .arr xs => by
    obtain ⟨vs, h⟩ := exists_valueList_docList xs
    exact ⟨.arr vs, by rw [Json.doc, Doc.value, h]; rfl⟩
  | .obj ms => by
    obtain ⟨vs, h⟩ := exists_valueMembers_docMembers ms
    exact ⟨object vs, by rw [Json.doc, Doc.value, h]; rfl⟩

theorem exists_valueList_docList : ∀ xs : List Json, ∃ vs, Doc.valueList (docList xs) = .ok vs
  | [] => ⟨[], rfl⟩
  | x :: xs => by
    obtain ⟨v, hv⟩ := exists_value_doc x
    obtain ⟨vs, hvs⟩ := exists_valueList_docList xs
    exact ⟨v :: vs, by rw [docList, Doc.valueList, hv, hvs]; rfl⟩

theorem exists_valueMembers_docMembers : ∀ ms : List (String × Json), ∃ vs, Doc.valueMembers (docMembers ms) = .ok vs
  | [] => ⟨[], rfl⟩
  | (k, x) :: ms => by
    obtain ⟨v, hv⟩ := exists_value_doc x
    obtain ⟨vs, hvs⟩ := exists_valueMembers_docMembers ms
    exact ⟨(k, v) :: vs, by rw [docMembers, Doc.valueMembers, hv, hvs]; rfl⟩

end

/-- a value is read as some value, and as itself when it is normal -/
theorem exists_value (j : Json) : ∃ v, j.doc.value = .ok v ∧ (j.Normal → v = j) := by
  obtain ⟨v, hv⟩ := exists_value_doc j
  refine ⟨v, hv, fun hj => ?_⟩
  have hself := value_doc hj
  rw [hv] at hself
  exact Except.ok.inj hself

theorem Follows.under_eq_nil {ms vs : List (String × Json)} (h : Follows ms vs) {k : String}
    (hk : Entries.under k ms = []) : Entries.under k vs = [] := by
  induction h with
  | nil => rfl
  | cons _ _ ih =>
    rw [Entries.under_cons] at hk ⊢
    split at hk
    · simp at hk
    · rename_i hne
      rw [if_neg hne, ih hk]

theorem Follows.under_eq {ms vs : List (String × Json)} (h : Follows ms vs) {k : String}
    (hk : ∀ v ∈ Entries.under k ms, v.Normal) : Entries.under k vs = Entries.under k ms := by
  induction h with
  | nil => rfl
  | cons hj _ ih =>
    rw [Entries.under_cons] at hk
    rw [Entries.under_cons, Entries.under_cons]
    split at hk
    · rename_i heq
      rw [if_pos heq, if_pos heq, hj (hk _ List.mem_cons_self), ih fun v hv => hk v (List.mem_cons_of_mem _ hv)]
    · rename_i hne
      rw [if_neg hne, if_neg hne, ih hk]

end Json

/-! ## Resources -/

namespace Kind

variable {σ : Type}

/-- the members that a resource is read from -/
def parts : List String := ["metadata", "spec", "status"]

/-- what stands in an object as metadata, spec and status reads as those of a resource -/
structure Reads (k : Kind σ) (f : String → Option Json) (x : Resource σ) : Prop where
  metadata : (Column.required "metadata" Metadata.codec).Takes (f "metadata") x.metadata
  spec : (Column.required "spec" k.spec).Takes (f "spec") x.spec
  status : (Column.optional "status" Status.codec).Takes (f "status") x.status

theorem reads_congr {k : Kind σ} {f g : String → Option Json} {x : Resource σ} (h : ∀ n ∈ parts, f n = g n) :
    k.Reads f x ↔ k.Reads g x := by
  have hm := h "metadata" (by simp [parts])
  have hs := h "spec" (by simp [parts])
  have ht := h "status" (by simp [parts])
  constructor <;> rintro ⟨h1, h2, h3⟩ <;> constructor <;> simp_all

/-- a resource is decoded from an object exactly when its metadata, spec and status are -/
theorem decode_iff {k : Kind σ} {ms : List (String × Json)} {x : Resource σ} (hms : Entries.Ordered ms) :
    k.codec.decode (.obj ms) = .ok x ↔ k.Reads (Entries.find? · ms) x := by
  have hnames : ["metadata", "spec", "status"].Nodup := by decide
  have hrecord : k.codec.decode (.obj ms) = .ok x ↔ k.fields.decode (.obj ms) = .ok x := Iff.rfl
  rw [hrecord, fields]
  refine Iff.trans (Codec.decode_record_iff hnames hms) ?_
  constructor
  · rintro ⟨⟨⟨metadata, spec, status, ⟨⟩⟩, ⟨h1, h2, h3, -⟩, rfl⟩, -⟩
    exact ⟨h1, h2, h3⟩
  · rintro ⟨h1, h2, h3⟩
    exact ⟨⟨(x.metadata, x.spec, x.status, ()), ⟨h1, h2, h3, trivial⟩, rfl⟩, fun h => nomatch h⟩

end Kind

/-! ## Objects without a schema -/

namespace Opaque

open Json (docMembers Follows)

theorem scan_of_absent {ms : List (String × Json)} (h : Entries.under "metadata" ms = []) (found : Option Metadata) :
    ∃ vs, scan found (docMembers ms) = .ok (found, vs) ∧ Follows ms vs := by
  induction ms with
  | nil => exact ⟨[], rfl, .nil⟩
  | cons m ms ih =>
    obtain ⟨k, j⟩ := m
    rw [Entries.under_cons] at h
    split at h
    · simp at h
    · rename_i hk
      obtain ⟨vs, hvs, hf⟩ := ih h
      obtain ⟨v, hv, hj⟩ := j.exists_value
      refine ⟨(k, v) :: vs, ?_, .cons hj hf⟩
      simp [docMembers, scan, Ne.symm hk, hv, hvs, bind, Except.bind, pure, Except.pure]

/-- the metadata is read where it stands, and every other member in turn -/
theorem scan_of_single {ms : List (String × Json)} {j : Json} {m : Metadata} (h : Entries.under "metadata" ms = [j])
    (hm : Metadata.codec.decode j = .ok m) :
    ∃ vs, scan none (docMembers ms) = .ok (some m, vs) ∧ Follows (Entries.erase "metadata" ms) vs := by
  induction ms with
  | nil => simp at h
  | cons e ms ih =>
    obtain ⟨k, x⟩ := e
    rw [Entries.under_cons] at h
    split at h
    · rename_i hk
      obtain rfl : "metadata" = k := hk
      obtain ⟨rfl, hrest⟩ := List.cons.inj h
      obtain ⟨vs, hvs, hf⟩ := scan_of_absent hrest (some m)
      have hread : Metadata.codec.read x.doc = .ok m := hm
      have herase : Entries.erase "metadata" (("metadata", x) :: ms) = ms := by
        have hne : ∀ e ∈ ms, e.1 ≠ "metadata" := by
          intro e he hek
          have hmem : e.2 ∈ Entries.under "metadata" ms := List.mem_filterMap.2 ⟨e, he, by simp [hek]⟩
          rw [hrest] at hmem
          exact absurd hmem List.not_mem_nil
        simp only [Entries.erase]
        rw [List.filter_cons_of_neg (by simp), List.filter_eq_self.2 fun e he => by simpa using hne e he]
      refine ⟨vs, ?_, by rwa [herase]⟩
      simp [docMembers, scan, hread, hvs, bind, Except.bind]
    · rename_i hk
      obtain ⟨vs, hvs, hf⟩ := ih h
      obtain ⟨v, hv, hj⟩ := x.exists_value
      have herase : Entries.erase "metadata" ((k, x) :: ms) = (k, x) :: Entries.erase "metadata" ms := by
        simp [Entries.erase, Ne.symm hk]
      refine ⟨(k, v) :: vs, ?_, by rw [herase]; exact .cons hj hf⟩
      simp [docMembers, scan, Ne.symm hk, hv, hvs, bind, Except.bind, pure, Except.pure]

/-- taking the label out leaves the other members as they stand -/
theorem under_splitLabel {k : String} (h1 : k ≠ "apiVersion") (h2 : k ≠ "kind") (l : PartialLabel)
    (vs : List (String × Json)) : Entries.under k (splitLabel l vs).2 = Entries.under k vs := by
  induction vs generalizing l with
  | nil => rfl
  | cons e vs ih =>
    obtain ⟨k', v⟩ := e
    rw [splitLabel, Entries.under_cons]
    split
    · rename_i hlabel
      have hne : k ≠ k' := by
        rintro rfl
        exact hlabel.elim h1 h2
      rw [if_neg hne]
      split
      · exact ih _
      · rfl
    · simp only [Entries.under_cons, ih]

theorem under_labelMembers {k : String} (h1 : k ≠ "apiVersion") (h2 : k ≠ "kind") (l : Option TypeLabel) :
    Entries.under k (labelMembers l) = [] := by
  cases l with
  | none => rfl
  | some l => simp [labelMembers, Entries.under_cons, h1, h2]

/-- a member besides label and metadata is written as it stands -/
theorem find?_write {k : String} (h1 : k ≠ "metadata") (h2 : k ≠ "apiVersion") (h3 : k ≠ "kind") (x : Opaque) :
    Entries.find? k x.write.members = x.get? k := by
  show Entries.find? k (Entries.ofList _) = Entries.find? k x.members.entries
  rw [Entries.find?_ofList, Entries.under_append, under_labelMembers h2 h3, List.nil_append, Entries.under_cons,
    if_neg h1, Entries.under_eq_toList x.members.ordered]
  cases Entries.find? k x.members.entries <;> rfl

/-- an object with metadata is read without a schema; written again it has that metadata, and every other member that is
normal and no label stands as it did -/
theorem exists_decode {ms : List (String × Json)} {j : Json} {m : Metadata} (hms : Entries.Ordered ms)
    (hj : Entries.find? "metadata" ms = some j) (hm : Metadata.codec.decode j = .ok m) :
    ∃ d, codec.decode (.obj ms) = .ok d ∧ d.metadata = m ∧ ∃ ws, d.write = .obj ws ∧ Entries.Ordered ws ∧
      Entries.find? "metadata" ws = some (Metadata.codec.write m) ∧
      ∀ k, k ≠ "metadata" → k ≠ "apiVersion" → k ≠ "kind" → (∀ v, Entries.find? k ms = some v → v.Normal) →
        Entries.find? k ws = Entries.find? k ms := by
  have hsingle : Entries.under "metadata" ms = [j] := by rw [Entries.under_eq_toList hms, hj]; rfl
  obtain ⟨vs, hscan, hfollows⟩ := scan_of_single hsingle hm
  let d : Opaque := ⟨(splitLabel {} vs).1, m, .ofList (splitLabel {} vs).2⟩
  have hd : codec.decode (.obj ms) = .ok d := by
    show read (.obj (docMembers ms) .measured) = .ok d
    rw [read, hscan]
    rfl
  have hentries : ∀ k, k ≠ "apiVersion" → k ≠ "kind" →
      Entries.find? k d.members.entries = (Entries.under k vs).getLast? := fun k h1 h2 => by
    show Entries.find? k (Entries.ofList (splitLabel {} vs).2) = _
    rw [Entries.find?_ofList, under_splitLabel h1 h2]
  have hwritten : ∀ k, k ≠ "apiVersion" → k ≠ "kind" →
      Entries.find? k d.write.members =
        (Entries.under k (("metadata", Metadata.codec.write m) :: d.members.entries)).getLast? := fun k h1 h2 => by
    show Entries.find? k (Entries.ofList _) = _
    rw [Entries.find?_ofList, Entries.under_append, under_labelMembers h1 h2, List.nil_append]
  have habsent : Entries.under "metadata" vs = [] := by
    refine hfollows.under_eq_nil (Entries.under_eq_nil fun h => ?_)
    obtain ⟨e, he, hek⟩ := List.mem_map.1 h
    exact absurd hek (by simpa using (List.mem_filter.1 he).2)
  refine ⟨d, hd, rfl, d.write.members, rfl, Entries.ordered_ofList _, ?_, fun k hk h1 h2 hnormal => ?_⟩
  · have hnone := hentries "metadata" (by decide) (by decide)
    rw [habsent] at hnone
    rw [hwritten _ (by decide) (by decide), Entries.under_cons, if_pos rfl, Entries.under_eq_toList d.members.ordered,
      hnone]
    rfl
  · have hunder : Entries.under k vs = Entries.under k ms := by
      rw [← Entries.under_erase hk ms]
      refine hfollows.under_eq fun v hv => hnormal v ?_
      rw [Entries.under_erase hk, Entries.under_eq_toList hms] at hv
      exact Option.mem_toList.1 hv
    rw [hwritten k h1 h2, Entries.under_cons, if_neg hk, Entries.under_eq_toList d.members.ordered, hentries k h1 h2,
      hunder, Entries.under_eq_toList hms]
    cases Entries.find? k ms <;> rfl

/-- what such an object decodes as, once it is written again, is what it decodes as, with its metadata read back -/
theorem exists_decode_write_iff {ms : List (String × Json)} {j : Json} {m m' : Metadata} (hms : Entries.Ordered ms)
    (hj : Entries.find? "metadata" ms = some j) (hm : Metadata.codec.decode j = .ok m)
    (hm' : Metadata.codec.decode (Metadata.codec.write m) = .ok m')
    (hnormal : ∀ n ∈ Kind.parts, ∀ v, Entries.find? n ms = some v → n ≠ "metadata" → v.Normal) :
    ∃ d, codec.decode (.obj ms) = .ok d ∧ d.metadata = m ∧ ∀ {σ : Type} (k : Kind σ) (x : Resource σ),
      k.codec.decode d.write = .ok x ↔ x.metadata = m' ∧ k.codec.decode (.obj ms) = .ok { x with metadata := m } := by
  obtain ⟨d, hd, hdm, ws, hws, hordered, hmetadata, hothers⟩ := exists_decode hms hj hm
  refine ⟨d, hd, hdm, fun k x => ?_⟩
  have hspec : Entries.find? "spec" ws = Entries.find? "spec" ms :=
    hothers "spec" (by decide) (by decide) (by decide) fun v hv => hnormal _ (by simp [Kind.parts]) v hv (by decide)
  have hstatus : Entries.find? "status" ws = Entries.find? "status" ms :=
    hothers "status" (by decide) (by decide) (by decide) fun v hv => hnormal _ (by simp [Kind.parts]) v hv (by decide)
  rw [hws, Kind.decode_iff hordered, Kind.decode_iff hms]
  constructor
  · rintro ⟨h1, h2, h3⟩
    rw [hmetadata] at h1
    rw [hspec] at h2
    rw [hstatus] at h3
    have hx : m' = x.metadata := Except.ok.inj (hm'.symm.trans h1)
    exact ⟨hx.symm, by rw [hj]; exact hm, h2, h3⟩
  · rintro ⟨rfl, _, h2, h3⟩
    exact ⟨by rw [hmetadata]; exact hm', by rw [hspec]; exact h2, by rw [hstatus]; exact h3⟩

end Opaque

end MigrationOperator
