/-
Normal values: objects list their members in ascending key order, all the way down.

Every value that is read is normal, and so is every value that is built from `Json.object`. Embedding a normal value in a
document loses nothing (`value_doc`), and it can be passed over (`skip_doc`).
-/
import MigrationOperator.Json.Document

namespace MigrationOperator.Json

mutual

def Normal : Json → Prop
  | .arr xs => NormalList xs
  | .obj ms => Entries.Ordered ms ∧ NormalMembers ms
  | .null | .bool _ | .int _ | .float _ | .str _ => True

def NormalList : List Json → Prop
  | [] => True
  | x :: xs => x.Normal ∧ NormalList xs

def NormalMembers : List (String × Json) → Prop
  | [] => True
  | (_, v) :: ms => v.Normal ∧ NormalMembers ms

end

theorem normalMembers_iff {ms : List (String × Json)} : NormalMembers ms ↔ ∀ m ∈ ms, m.2.Normal := by
  induction ms with
  | nil => simp [NormalMembers]
  | cons m ms ih => simp [NormalMembers, ih]

/-- inserting a member keeps the values normal -/
theorem normal_of_mem_insert {k : String} {v : Json} {ms : List (String × Json)} (hv : v.Normal)
    (h : ∀ m ∈ ms, m.2.Normal) : ∀ m ∈ Entries.insert k v ms, m.2.Normal := by
  intro m hm
  rcases Entries.mem_insert hm with rfl | hm
  · exact hv
  · exact h m hm

theorem normal_object {ms : List (String × Json)} (h : ∀ m ∈ ms, m.2.Normal) : (object ms).Normal := by
  have key : ∀ (l acc : List (String × Json)), (∀ m ∈ acc, m.2.Normal) → (∀ m ∈ l, m.2.Normal) →
      ∀ m ∈ l.foldl (fun acc e => Entries.insert e.1 e.2 acc) acc, m.2.Normal := by
    intro l
    induction l with
    | nil => intro acc hacc _; exact hacc
    | cons e l ih =>
      intro acc hacc hl
      exact ih _ (normal_of_mem_insert (hl e List.mem_cons_self) hacc) fun m hm => hl m (List.mem_cons_of_mem _ hm)
  exact ⟨Entries.ordered_ofList ms, normalMembers_iff.2 (key ms [] (by simp) h)⟩

theorem normal_set {j v : Json} (k : String) (hj : j.Normal) (hv : v.Normal) : (j.set k v).Normal := by
  cases j with
  | obj ms =>
    exact ⟨Entries.ordered_insert _ _ hj.1, normalMembers_iff.2 (normal_of_mem_insert hv (normalMembers_iff.1 hj.2))⟩
  | null => exact ⟨List.pairwise_singleton _ _, hv, trivial⟩
  | _ => exact hj

/-! ## Values in documents -/

theorem keys_docMembers (ms : List (String × Json)) : (docMembers ms).map Prod.fst = ms.map Prod.fst := by
  induction ms with
  | nil => rfl
  | cons m ms ih => simp [docMembers, ih]

theorem eq_doc_of_mem_docMembers {ms : List (String × Json)} {m : String × Doc} (h : m ∈ docMembers ms) :
    ∃ v : Json, m.2 = v.doc := by
  induction ms with
  | nil => simp [docMembers] at h
  | cons e ms ih =>
    rcases List.mem_cons.1 h with rfl | h
    · exact ⟨_, rfl⟩
    · exact ih h

theorem under_docMembers (k : String) (ms : List (String × Json)) :
    Entries.under k (docMembers ms) = (Entries.under k ms).map Json.doc := by
  induction ms with
  | nil => rfl
  | cons m ms ih =>
    rw [docMembers, Entries.under_cons, Entries.under_cons, ih]
    split <;> simp_all

mutual

theorem value_doc : ∀ {j : Json}, j.Normal → j.doc.value = .ok j
  | .null, _ => rfl
  | .bool _, _ => rfl
  | .int _, _ => rfl
  | .float _, _ => rfl
  | .str _, _ => rfl
  | .arr _, h => by rw [Json.doc, Doc.value, valueList_docList h]; rfl
  | .obj ms, h => by
    rw [Json.doc, Doc.value, valueMembers_docMembers h.2]
    show Except.ok (object ms) = Except.ok (Json.obj ms)
    rw [object, Entries.ofList_of_ordered h.1]

theorem valueList_docList : ∀ {xs : List Json}, NormalList xs → Doc.valueList (docList xs) = .ok xs
  | [], _ => rfl
  | _ :: _, h => by rw [docList, Doc.valueList, value_doc h.1, valueList_docList h.2]; rfl

theorem valueMembers_docMembers :
    ∀ {ms : List (String × Json)}, NormalMembers ms → Doc.valueMembers (docMembers ms) = .ok ms
  | [], _ => rfl
  | (_, _) :: _, h => by rw [docMembers, Doc.valueMembers, value_doc h.1, valueMembers_docMembers h.2]; rfl

end

mutual

theorem skip_doc : ∀ (j : Json), j.doc.skip = .ok ()
  | .null => rfl
  | .bool _ => rfl
  | .int _ => rfl
  | .float _ => rfl
  | .str _ => rfl
  | .arr xs => by rw [Json.doc, Doc.skip, skipList_docList xs]; rfl
  | .obj ms => by rw [Json.doc, Doc.skip, skipMembers_docMembers ms]; rfl

theorem skipList_docList : ∀ (xs : List Json), Doc.skipList (docList xs) = .ok ()
  | [] => rfl
  | x :: xs => by rw [docList, Doc.skipList, skip_doc x]; exact skipList_docList xs

theorem skipMembers_docMembers : ∀ (ms : List (String × Json)), Doc.skipMembers (docMembers ms) = .ok ()
  | [] => rfl
  | (_, v) :: ms => by rw [docMembers, Doc.skipMembers, skip_doc v]; exact skipMembers_docMembers ms

end

end MigrationOperator.Json
