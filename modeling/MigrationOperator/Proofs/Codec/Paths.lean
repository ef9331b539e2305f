/-
What a schema says along the paths of a value.

A path of names leads into a value and into its schema at once: through the fields of records and the entries of maps.
`Schema.Fits` says where a value has to hold an object or a text, `Schema.Kept`, `Schema.Added` and `Schema.Known` compare
a value with what is written in its place, member by member at every depth. Each of the four is passed down from an
object to what stands under one of its keys.
-/
import MigrationOperator.Codec.Schema
import MigrationOperator.Proofs.Json.MergePatch

namespace MigrationOperator

namespace Schema

/-! ## Positions -/

/-- the schema of what stands under a key -/
def child? (k : String) : Schema → Option Schema
  | .record properties _ => Entries.find? k properties
  | .table values => some values
  | .nullable s | .described _ s | .defaulted _ s => s.child? k
  | .any | .text | .flag | .int32 | .quantity => none

/-- the schema of what stands at a path -/
def at? : List String → Schema → Option Schema
  | [], s => some s
  | k :: ks, s => (s.child? k).bind (at? ks)

/-- structures are held as records -/
def isRecord : Schema → Bool
  | .record _ _ => true
  | .described _ s | .defaulted _ s => s.isRecord
  | _ => false

def isQuantity : Schema → Bool
  | .quantity => true
  | .nullable s | .described _ s | .defaulted _ s => s.isQuantity
  | _ => false

/-- the value that a field of this schema has where it is left out -/
def vacant? : Schema → Option Json
  | .text => some (.str "")
  | .flag => some (.bool false)
  | .int32 => some (.int 0)
  | .table _ => some (.obj [])
  | .nullable _ => some .null
  | .described _ s | .defaulted _ s => s.vacant?
  | .any | .quantity | .record _ _ => none

def recordAt (s : Schema) (p : List String) : Bool := (s.at? p).any isRecord

def quantityAt (s : Schema) (p : List String) : Bool := (s.at? p).any isQuantity

/-- the value at a path is a field of a structure, and the one that the field has where it is left out -/
def DefaultAt (s : Schema) (p : List String) (u : Json) : Prop :=
  ∃ q k, p = q ++ [k] ∧ s.recordAt q = true ∧ (s.at? p).bind vacant? = some u

theorem not_isQuantity_of_isRecord : ∀ {s : Schema}, s.isRecord = true → s.isQuantity = false
  | .record _ _, _ => rfl
  | .described _ s, h | .defaulted _ s, h => not_isQuantity_of_isRecord (s := s) h
  | .any, h | .text, h | .flag, h | .int32, h | .quantity, h | .table _, h | .nullable _, h => absurd h nofun

/-! ## Comparing values -/

/-- structures are held as objects, and quantities as texts -/
def Fits (s : Schema) (v : Json) : Prop :=
  ∀ p u, v.at? p = some u →
    (s.recordAt p = true → ∃ ms, u = .obj ms) ∧ (s.quantityAt p = true → ∃ q, u = .str q)

/-- every member stands in what is written as well, at the same path and with the same value; a structure stands there as
an object, whose members stand on their own paths, and fields at their defaults may be left out -/
def Kept (s : Schema) (v w : Json) : Prop :=
  ∀ p u, v.at? p = some u →
    w.at? p = some u ∨ (s.recordAt p = true ∧ ∃ ms, w.at? p = some (.obj ms)) ∨ s.DefaultAt p u

/-- every member of what is written stood there before, apart from structures and these fields -/
def Added (s : Schema) (extra : List String) (v w : Json) : Prop :=
  ∀ p u, w.at? p = some u → v.at? p = some u ∨ s.recordAt p = true ∨ ∃ k ∈ extra, p = [k]

/-- every member of a structure is a field of it -/
def Known (s : Schema) (v : Json) : Prop :=
  ∀ p k, s.recordAt p = true → (v.at? (p ++ [k])).isSome → (s.at? (p ++ [k])).isSome

/-! ## One step down a path -/

variable {s t : Schema} {k : String} {v w e : Json}

theorem at?_cons_of_child (h : s.child? k = some t) (p : List String) : s.at? (k :: p) = t.at? p := by
  rw [at?, h]
  rfl

theorem recordAt_cons (h : s.child? k = some t) (p : List String) : s.recordAt (k :: p) = t.recordAt p := by
  rw [recordAt, recordAt, at?_cons_of_child h]

theorem quantityAt_cons (h : s.child? k = some t) (p : List String) : s.quantityAt (k :: p) = t.quantityAt p := by
  rw [quantityAt, quantityAt, at?_cons_of_child h]

theorem DefaultAt.cons {p : List String} {u : Json} (hdefault : t.DefaultAt p u) (h : s.child? k = some t) :
    s.DefaultAt (k :: p) u := by
  obtain ⟨q, k', rfl, hrecord, hvacant⟩ := hdefault
  exact ⟨k :: q, k', rfl, by rw [recordAt_cons h, hrecord], by rw [at?_cons_of_child h, hvacant]⟩

theorem defaultAt_single (hs : s.isRecord = true) (h : s.child? k = some t) (ht : t.vacant? = some e) :
    s.DefaultAt [k] e :=
  ⟨[], k, rfl, by rw [recordAt, at?]; exact hs, by rw [at?_cons_of_child h]; exact ht⟩

end Schema

namespace Json

theorem at?_cons_of_get? {j e : Json} {k : String} (h : j.get? k = some e) (p : List String) :
    j.at? (k :: p) = e.at? p := by
  rw [at?, h]
  rfl

theorem exists_get?_of_at?_cons {j u : Json} {k : String} {p : List String} (h : j.at? (k :: p) = some u) :
    ∃ e, j.get? k = some e ∧ e.at? p = some u := by
  rw [at?] at h
  exact Option.bind_eq_some_iff.1 h

/-- a value without members has nothing on longer paths -/
theorem at?_eq_some_iff_of_scalar {j u : Json} (h : j.members = []) {p : List String} :
    j.at? p = some u ↔ p = [] ∧ u = j := by
  cases p with
  | nil => simp [at?, eq_comm]
  | cons k p =>
    have hget : j.get? k = none := by rw [get?, h]; rfl
    simp [at?, hget]

end Json

namespace Schema

variable {s t : Schema} {k : String} {v w e : Json}

theorem Fits.get? (hv : s.Fits v) (h : s.child? k = some t) (he : v.get? k = some e) : t.Fits e := by
  intro p u hu
  have hu' : v.at? (k :: p) = some u := by rw [Json.at?_cons_of_get? he, hu]
  have hfits := hv (k :: p) u hu'
  rwa [recordAt_cons h, quantityAt_cons h] at hfits

/-- a value fits when it does itself, and its members do -/
theorem fits_of_members (hrecord : s.isRecord = true → ∃ ms, v = .obj ms)
    (hquantity : s.isQuantity = true → ∃ q, v = .str q)
    (h : ∀ k e, v.get? k = some e → ∀ t, s.child? k = some t → t.Fits e) : s.Fits v := by
  intro p u hu
  cases p with
  | nil =>
    obtain rfl : v = u := Option.some.inj hu
    exact ⟨hrecord, hquantity⟩
  | cons k p =>
    obtain ⟨e, he, hu⟩ := Json.exists_get?_of_at?_cons hu
    cases ht : s.child? k with
    | none =>
      have hnone : s.at? (k :: p) = none := by rw [at?, ht]; rfl
      rw [recordAt, quantityAt, hnone]
      exact ⟨nofun, nofun⟩
    | some t =>
      rw [recordAt_cons ht, quantityAt_cons ht]
      exact h k e he t ht p u hu

/-- what fits a structure is an object -/
theorem Fits.exists_obj (hv : s.Fits v) (hs : s.isRecord = true) : ∃ ms, v = .obj ms :=
  (hv [] v rfl).1 hs

/-- a default has no members -/
theorem members_eq_nil_of_vacant : ∀ {s : Schema}, s.vacant? = some e → e.members = []
  | .text, h | .flag, h | .int32, h | .table _, h | .nullable _, h => Option.some.inj h ▸ rfl
  | .described _ s, h | .defaulted _ s, h => members_eq_nil_of_vacant (s := s) h
  | .any, h | .quantity, h | .record _ _, h => absurd h nofun

theorem Kept.refl (s : Schema) (v : Json) : s.Kept v v := fun _ _ hu => Or.inl hu

theorem Added.refl (s : Schema) (extra : List String) (v : Json) : s.Added extra v v := fun _ _ hu => Or.inl hu

/-! ## Notes and published defaults -/

/-- two schemas say the same along all paths -/
structure Alike (s t : Schema) : Prop where
  child : ∀ k, s.child? k = t.child? k
  record : s.isRecord = t.isRecord
  quantity : s.isQuantity = t.isQuantity
  vacant : s.vacant? = t.vacant?

namespace Alike

theorem refl (s : Schema) : Alike s s := ⟨fun _ => rfl, rfl, rfl, rfl⟩

theorem described (note : String) (s : Schema) : Alike (.described note s) s := ⟨fun _ => rfl, rfl, rfl, rfl⟩

theorem defaulted (x : Json) (s : Schema) : Alike (.defaulted x s) s := ⟨fun _ => rfl, rfl, rfl, rfl⟩

theorem trans {r : Schema} (h : Alike s t) (h' : Alike t r) : Alike s r :=
  ⟨fun k => (h.child k).trans (h'.child k), h.record.trans h'.record, h.quantity.trans h'.quantity,
    h.vacant.trans h'.vacant⟩

theorem at?_cons (h : Alike s t) (k : String) (p : List String) : s.at? (k :: p) = t.at? (k :: p) := by
  rw [at?, at?, h.child]

theorem recordAt_eq (h : Alike s t) (p : List String) : s.recordAt p = t.recordAt p := by
  cases p with
  | nil => exact h.record
  | cons k p => rw [recordAt, recordAt, h.at?_cons]

theorem quantityAt_eq (h : Alike s t) (p : List String) : s.quantityAt p = t.quantityAt p := by
  cases p with
  | nil => exact h.quantity
  | cons k p => rw [quantityAt, quantityAt, h.at?_cons]

theorem at?_concat (h : Alike s t) (q : List String) (k : String) : s.at? (q ++ [k]) = t.at? (q ++ [k]) := by
  cases q with
  | nil => exact h.at?_cons k []
  | cons k' q => exact h.at?_cons k' (q ++ [k])

theorem fits_iff (h : Alike s t) : s.Fits v ↔ t.Fits v := by
  simp only [Fits, h.recordAt_eq, h.quantityAt_eq]

theorem defaultAt_iff (h : Alike s t) {p : List String} {u : Json} : s.DefaultAt p u ↔ t.DefaultAt p u := by
  constructor
  · rintro ⟨q, k, rfl, hrecord, hvacant⟩
    exact ⟨q, k, rfl, h.recordAt_eq q ▸ hrecord, h.at?_concat q k ▸ hvacant⟩
  · rintro ⟨q, k, rfl, hrecord, hvacant⟩
    exact ⟨q, k, rfl, (h.recordAt_eq q).symm ▸ hrecord, (h.at?_concat q k).symm ▸ hvacant⟩

theorem kept_iff (h : Alike s t) : s.Kept v w ↔ t.Kept v w := by
  simp only [Kept, h.recordAt_eq, h.defaultAt_iff]

theorem added_iff (h : Alike s t) {extra : List String} : s.Added extra v w ↔ t.Added extra v w := by
  simp only [Added, h.recordAt_eq]

theorem known_iff (h : Alike s t) : s.Known v ↔ t.Known v := by
  simp only [Known, h.recordAt_eq, h.at?_concat]

end Alike

end Schema

end MigrationOperator
