/-
Maps keyed by text, kept in key order.

`Entries` are the operations on a list of keyed values in ascending order of code points: `insert`, `find?`, `erase`.
`StringMap` packages such a list with the proof that its keys ascend strictly, so a map has one representation and
equality of maps is equality of lists. `insert` keeps the order (`ordered_insert`), reading a map back after a write is
`find?_insert`, entries in order are left as they are (`ofList_of_ordered`), and of different keys none is lost
(`under_ofList`).
-/

namespace MigrationOperator

/-! ## Ordered lists of keyed values -/

namespace Entries

variable {α : Type}

/-- keys ascend strictly -/
def Ordered (es : List (String × α)) : Prop := es.Pairwise (fun a b => a.1 < b.1)

instance (es : List (String × α)) : Decidable (Ordered es) :=
  inferInstanceAs (Decidable (es.Pairwise fun a b => a.1 < b.1))

/-- put a value under a key, in its place in the order; the value that was there is replaced -/
def insert (k : String) (v : α) : List (String × α) → List (String × α)
  | [] => [(k, v)]
  | e :: es =>
    if k < e.1 then (k, v) :: e :: es
    else if k = e.1 then (k, v) :: es
    else e :: insert k v es

/-- the value of the first entry with that key -/
def find? (k : String) : List (String × α) → Option α
  | [] => none
  | e :: es => if k = e.1 then some e.2 else find? k es

/-- without the entries of that key -/
def erase (k : String) (es : List (String × α)) : List (String × α) :=
  es.filter (fun e => e.1 ≠ k)

/-- the values under a key, in order -/
def under (k : String) (es : List (String × α)) : List α :=
  es.filterMap fun e => if k = e.1 then some e.2 else none

/-- entries in any order brought into key order; of two with one key the later stays -/
def ofList (es : List (String × α)) : List (String × α) :=
  es.foldl (fun acc e => insert e.1 e.2 acc) []

/-- whatever the values are -/
theorem ordered_iff_keys {es : List (String × α)} : Ordered es ↔ (es.map Prod.fst).Pairwise (· < ·) :=
  List.pairwise_map.symm

theorem mem_insert {k : String} {v : α} {es : List (String × α)} {e : String × α} (h : e ∈ insert k v es) :
    e = (k, v) ∨ e ∈ es := by
  induction es with
  | nil => simpa [insert] using h
  | cons x xs ih =>
    simp only [insert] at h
    split at h
    · simpa using h
    · split at h
      · rcases List.mem_cons.1 h with h | h
        · exact Or.inl h
        · exact Or.inr (List.mem_cons_of_mem _ h)
      · rcases List.mem_cons.1 h with h | h
        · exact Or.inr (h ▸ List.mem_cons_self)
        · exact (ih h).imp id (List.mem_cons_of_mem _)

theorem ordered_insert (k : String) (v : α) {es : List (String × α)} (h : Ordered es) : Ordered (insert k v es) := by
  induction es with
  | nil => simp [insert, Ordered]
  | cons x xs ih =>
    obtain ⟨hx, hxs⟩ := List.pairwise_cons.1 h
    simp only [insert]
    split
    · rename_i hlt
      refine List.pairwise_cons.2 ⟨fun e he => ?_, h⟩
      rcases List.mem_cons.1 he with rfl | he
      · exact hlt
      · exact String.lt_trans hlt (hx e he)
    · split
      · rename_i heq
        exact List.pairwise_cons.2 ⟨fun e he => heq ▸ hx e he, hxs⟩
      · rename_i hnlt hne
        refine List.pairwise_cons.2 ⟨fun e he => ?_, ih hxs⟩
        rcases mem_insert he with rfl | he
        · rcases Std.lt_trichotomy k x.1 with h | h | h
          · exact absurd h hnlt
          · exact absurd h hne
          · exact h
        · exact hx e he

theorem ordered_erase (k : String) {es : List (String × α)} (h : Ordered es) : Ordered (erase k es) :=
  h.filter _

theorem ordered_ofList (es : List (String × α)) : Ordered (ofList es) := by
  have key : ∀ (l acc : List (String × α)), Ordered acc → Ordered (l.foldl (fun acc e => insert e.1 e.2 acc) acc) := by
    intro l
    induction l with
    | nil => intro acc h; exact h
    | cons e l ih => intro acc h; exact ih _ (ordered_insert _ _ h)
  exact key es [] List.Pairwise.nil

theorem find?_insert (k k' : String) (v : α) (es : List (String × α)) :
    find? k' (insert k v es) = if k' = k then some v else find? k' es := by
  induction es with
  | nil => simp [insert, find?]
  | cons x xs ih =>
    simp only [insert]
    split
    · simp [find?]
    · split
      · rename_i heq
        subst heq
        by_cases h : k' = x.1 <;> simp [find?, h]
      · rename_i hne
        simp only [find?, ih]
        by_cases h : k' = x.1
        · have : k' ≠ k := fun h' => hne (h' ▸ h)
          rw [if_pos h, if_neg this, if_pos h]
        · simp [h]

/-- a key beyond all others goes to the end -/
theorem insert_of_forall_lt {k : String} {v : α} {es : List (String × α)} (h : ∀ e ∈ es, e.1 < k) :
    insert k v es = es ++ [(k, v)] := by
  induction es with
  | nil => rfl
  | cons x xs ih =>
    have hx : x.1 < k := h x List.mem_cons_self
    have hne : k ≠ x.1 := fun he => String.lt_irrefl k (he ▸ hx)
    have hnlt : ¬ k < x.1 := fun hlt => String.lt_irrefl k (String.lt_trans hlt hx)
    simp [insert, hne, hnlt, ih fun e he => h e (List.mem_cons_of_mem _ he)]

/-- bringing entries into order adds none -/
theorem mem_of_mem_ofList {es : List (String × α)} {e : String × α} (h : e ∈ ofList es) : e ∈ es := by
  have key : ∀ (l acc : List (String × α)),
      ∀ e ∈ l.foldl (fun acc e => insert e.1 e.2 acc) acc, e ∈ acc ∨ e ∈ l := by
    intro l
    induction l with
    | nil => intro acc e he; exact Or.inl he
    | cons x l ih =>
      intro acc e he
      rcases ih _ e he with he | he
      · rcases mem_insert he with rfl | he
        · exact Or.inr List.mem_cons_self
        · exact Or.inl he
      · exact Or.inr (List.mem_cons_of_mem _ he)
  rcases key es [] e h with h | h
  · exact absurd h List.not_mem_nil
  · exact h

theorem keys_ofList_subset {es : List (String × α)} : (ofList es).map Prod.fst ⊆ es.map Prod.fst := by
  intro k hk
  obtain ⟨e, he, rfl⟩ := List.mem_map.1 hk
  exact List.mem_map_of_mem (mem_of_mem_ofList he)

/-- entries that are in order stay as they are -/
theorem ofList_of_ordered {es : List (String × α)} (h : Ordered es) : ofList es = es := by
  have key : ∀ (l acc : List (String × α)), Ordered (acc ++ l) →
      l.foldl (fun acc e => insert e.1 e.2 acc) acc = acc ++ l := by
    intro l
    induction l with
    | nil => intro acc _; simp
    | cons e l ih =>
      intro acc hacc
      have hlt : ∀ x ∈ acc, x.1 < e.1 := fun x hx => (List.pairwise_append.1 hacc).2.2 x hx e List.mem_cons_self
      rw [List.foldl_cons, insert_of_forall_lt hlt]
      simpa using ih (acc ++ [e]) (by simpa using hacc)
  simpa [ofList] using key es [] (by simpa using h)

/-! ### Values under a key -/

@[simp] theorem under_nil (k : String) : under k ([] : List (String × α)) = [] := rfl

theorem under_cons (k : String) (e : String × α) (es : List (String × α)) :
    under k (e :: es) = if k = e.1 then e.2 :: under k es else under k es := by
  simp only [under, List.filterMap_cons]
  split <;> rename_i h <;> by_cases hk : k = e.1 <;> simp_all

theorem under_append (k : String) (es fs : List (String × α)) : under k (es ++ fs) = under k es ++ under k fs := by
  simp [under]

theorem under_eq_nil {k : String} {es : List (String × α)} (h : k ∉ es.map Prod.fst) : under k es = [] := by
  induction es with
  | nil => rfl
  | cons e es ih =>
    simp only [List.map_cons, List.mem_cons, not_or] at h
    rw [under_cons, if_neg h.1, ih h.2]

theorem under_erase {k k' : String} (h : k' ≠ k) (es : List (String × α)) : under k' (erase k es) = under k' es := by
  induction es with
  | nil => rfl
  | cons e es ih =>
    simp only [erase] at ih ⊢
    rw [List.filter_cons, under_cons]
    by_cases hk : e.1 = k
    · rw [if_neg (by simp [hk]), ih, if_neg fun h' => h (h'.trans hk)]
    · rw [if_pos (by simp [hk]), under_cons, ih]

theorem under_insert (k k' : String) (v : α) {es : List (String × α)} (h : Ordered es) :
    under k' (insert k v es) = if k' = k then [v] else under k' es := by
  induction es with
  | nil => simp [insert, under_cons]
  | cons x xs ih =>
    obtain ⟨hx, hxs⟩ := List.pairwise_cons.1 h
    have absent : ∀ {j : String}, (∀ e ∈ xs, j < e.1) → under j xs = [] := fun hj =>
      under_eq_nil fun hm => by
        obtain ⟨e, he, rfl⟩ := List.mem_map.1 hm
        exact String.lt_irrefl _ (hj e he)
    simp only [insert]
    split
    · rename_i hlt
      by_cases hk : k' = k
      · subst hk
        have hne : k' ≠ x.1 := fun he => String.lt_irrefl _ (he ▸ hlt)
        simp [under_cons, hne, absent fun e he => String.lt_trans hlt (hx e he)]
      · simp [under_cons, hk]
    · split
      · rename_i heq
        subst heq
        by_cases hk : k' = x.1
        · subst hk
          simp [under_cons, absent hx]
        · simp [under_cons, hk]
      · rename_i hne
        by_cases hk : k' = k
        · subst hk
          simp [under_cons, hne, ih hxs]
        · simp [under_cons, hk, ih hxs]

/-- of entries with different keys, one that is there is the only one of its key -/
theorem under_of_mem {es : List (String × α)} (hes : (es.map Prod.fst).Nodup) {e : String × α} (h : e ∈ es) :
    under e.1 es = [e.2] := by
  induction es with
  | nil => exact absurd h List.not_mem_nil
  | cons x es ih =>
    obtain ⟨hx, hes⟩ := List.nodup_cons.1 hes
    rw [under_cons]
    rcases List.mem_cons.1 h with rfl | h
    · rw [if_pos rfl, under_eq_nil hx]
    · have hne : e.1 ≠ x.1 := fun hk => hx (hk ▸ List.mem_map_of_mem h)
      rw [if_neg hne, ih hes h]

/-- bringing entries of different keys into order loses none -/
theorem under_ofList {es : List (String × α)} (h : (es.map Prod.fst).Nodup) (k : String) :
    under k (ofList es) = under k es := by
  have key : ∀ (l acc : List (String × α)), Ordered acc → (l.map Prod.fst).Nodup →
      under k (l.foldl (fun acc e => insert e.1 e.2 acc) acc) =
        if k ∈ l.map Prod.fst then under k l else under k acc := by
    intro l
    induction l with
    | nil => intro acc _ _; simp
    | cons e l ih =>
      intro acc hacc hl
      obtain ⟨he, hl⟩ := List.nodup_cons.1 hl
      rw [List.foldl_cons, ih _ (ordered_insert _ _ hacc) hl, under_cons, under_insert _ _ _ hacc]
      by_cases hk : k = e.1
      · subst hk
        simp [he, under_eq_nil he]
      · simp only [List.map_cons, List.mem_cons, hk, false_or, if_false]
  rw [ofList, key es [] List.Pairwise.nil h]
  split
  · rfl
  · rename_i hk
    rw [under_nil, under_eq_nil hk]

/-! ### The entry of a key -/

theorem find?_eq_head? (k : String) (es : List (String × α)) : find? k es = (under k es).head? := by
  induction es with
  | nil => rfl
  | cons e es ih =>
    rw [find?, under_cons, ih]
    split <;> rfl

/-- entries in order hold one value a key -/
theorem under_eq_toList {es : List (String × α)} (h : Ordered es) (k : String) : under k es = (find? k es).toList := by
  induction es with
  | nil => rfl
  | cons e es ih =>
    obtain ⟨he, hes⟩ := List.pairwise_cons.1 h
    rw [under_cons, find?]
    split
    · rename_i hk
      have habsent : under k es = [] := under_eq_nil fun hm => by
        obtain ⟨x, hx, rfl⟩ := List.mem_map.1 hm
        exact String.lt_irrefl _ (hk ▸ he x hx)
      simp [habsent]
    · exact ih hes

/-- of entries with one key the last one stays -/
theorem find?_ofList (k : String) (es : List (String × α)) : find? k (ofList es) = (under k es).getLast? := by
  have key : ∀ (l acc : List (String × α)),
      find? k (l.foldl (fun acc e => insert e.1 e.2 acc) acc) = ((under k l).getLast?).or (find? k acc) := by
    intro l
    induction l with
    | nil => intro acc; rfl
    | cons e l ih =>
      intro acc
      rw [List.foldl_cons, ih, find?_insert, under_cons]
      by_cases hk : k = e.1
      · simp only [hk, if_true, List.getLast?_cons]
        cases (under e.1 l).getLast? <;> rfl
      · simp [hk]
  have hall := key es []
  rwa [find?, Option.or_none] at hall

theorem mem_of_find? {k : String} {v : α} {es : List (String × α)} (h : find? k es = some v) : (k, v) ∈ es := by
  induction es with
  | nil => simp [find?] at h
  | cons e es ih =>
    rw [find?] at h
    split at h
    · rename_i hk
      obtain rfl := Option.some.inj h
      exact hk ▸ List.mem_cons_self
    · exact List.mem_cons_of_mem _ (ih h)

/-- a key that is found is among the keys -/
theorem mem_keys_of_find? {k : String} {v : α} {es : List (String × α)} (h : find? k es = some v) :
    k ∈ es.map Prod.fst :=
  List.mem_map_of_mem (mem_of_find? h)

/-- bringing entries into order loses no key -/
theorem mem_keys_ofList {k : String} {es : List (String × α)} (h : k ∈ es.map Prod.fst) :
    k ∈ (ofList es).map Prod.fst := by
  obtain ⟨e, he, rfl⟩ := List.mem_map.1 h
  have hunder : e.2 ∈ under e.1 es := List.mem_filterMap.2 ⟨e, he, if_pos rfl⟩
  have hfind := find?_ofList e.1 es
  rw [List.getLast?_eq_some_getLast (List.ne_nil_of_mem hunder)] at hfind
  exact mem_keys_of_find? hfind

theorem ofList_eq_nil_iff {es : List (String × α)} : ofList es = [] ↔ es = [] := by
  refine ⟨fun h => ?_, fun h => by rw [h]; rfl⟩
  cases es with
  | nil => rfl
  | cons e es =>
    have hkey : e.1 ∈ (ofList (e :: es)).map Prod.fst := mem_keys_ofList List.mem_cons_self
    rw [h] at hkey
    exact absurd hkey List.not_mem_nil

/-- a member whose key stands once is found under it -/
theorem find?_of_mem {es : List (String × α)} {e : String × α} (he : e ∈ es) (h : (under e.1 es).length ≤ 1) :
    find? e.1 es = some e.2 := by
  have hmem : e.2 ∈ under e.1 es := List.mem_filterMap.2 ⟨e, he, by simp⟩
  rw [find?_eq_head?]
  cases hu : under e.1 es with
  | nil =>
    rw [hu] at hmem
    exact absurd hmem List.not_mem_nil
  | cons x xs =>
    rw [hu, List.length_cons] at h
    rw [hu, List.length_eq_zero_iff.1 (by omega : xs.length = 0)] at hmem
    rw [List.mem_singleton.1 hmem]
    rfl

theorem find?_of_mem_of_ordered {es : List (String × α)} (hes : Ordered es) {e : String × α} (he : e ∈ es) :
    find? e.1 es = some e.2 := by
  refine find?_of_mem he ?_
  rw [under_eq_toList hes]
  cases find? e.1 es <;> simp

/-- a key before all others is not found -/
theorem find?_of_forall_lt {k : String} {es : List (String × α)} (h : ∀ e ∈ es, k < e.1) : find? k es = none := by
  cases hf : find? k es with
  | none => rfl
  | some v => exact absurd (h _ (mem_of_find? hf)) (String.lt_irrefl k)

theorem find?_erase (k k' : String) (es : List (String × α)) :
    find? k' (erase k es) = if k' = k then none else find? k' es := by
  split
  · rename_i hk
    rw [hk, find?_eq_head?, under_eq_nil (fun h => ?_)]
    · rfl
    · obtain ⟨e, he, hek⟩ := List.mem_map.1 h
      exact absurd hek (by simpa using (List.mem_filter.1 he).2)
  · rename_i hk
    rw [find?_eq_head?, find?_eq_head?, under_erase hk]

/-- entries in order are determined by what is found under each key -/
theorem ext_of_ordered {es fs : List (String × α)} (hes : Ordered es) (hfs : Ordered fs)
    (h : ∀ k, find? k es = find? k fs) : es = fs := by
  induction es generalizing fs with
  | nil =>
    cases fs with
    | nil => rfl
    | cons f fs => exact absurd (h f.1) (by simp [find?])
  | cons e es ih =>
    obtain ⟨he, hes⟩ := List.pairwise_cons.1 hes
    cases fs with
    | nil => exact absurd (h e.1) (by simp [find?])
    | cons f fs =>
      obtain ⟨hf, hfs⟩ := List.pairwise_cons.1 hfs
      have hkey : e.1 = f.1 := by
        -- the smaller of two first keys would be missing on the other side
        rcases Std.lt_trichotomy e.1 f.1 with hlt | heq | hlt
        · have hnone : find? e.1 (f :: fs) = none := find?_of_forall_lt fun x hx => by
            rcases List.mem_cons.1 hx with rfl | hx
            · exact hlt
            · exact String.lt_trans hlt (hf x hx)
          exact absurd ((h e.1).trans hnone) (by simp [find?])
        · exact heq
        · have hnone : find? f.1 (e :: es) = none := find?_of_forall_lt fun x hx => by
            rcases List.mem_cons.1 hx with rfl | hx
            · exact hlt
            · exact String.lt_trans hlt (he x hx)
          exact absurd ((h f.1).symm.trans hnone) (by simp [find?])
      have hvalue : e.2 = f.2 := by simpa [find?, hkey] using h e.1
      have htail : ∀ k, find? k es = find? k fs := fun k => by
        by_cases hk : k = e.1
        · rw [hk, find?_of_forall_lt he, hkey, find?_of_forall_lt hf]
        · simpa [find?, hk, hkey ▸ hk] using h k
      rw [ih hes hfs htail, Prod.ext hkey hvalue]

end Entries

/-! ## Maps -/

/-- a finite map from text, one entry a key, in ascending order of code points -/
structure StringMap (α : Type) where
  entries : List (String × α) := []
  ordered : Entries.Ordered entries := by exact List.Pairwise.nil
deriving DecidableEq

namespace StringMap

variable {α : Type}

def empty : StringMap α := {}

instance : Inhabited (StringMap α) := ⟨empty⟩

def isEmpty (m : StringMap α) : Bool := m.entries.isEmpty

def get? (m : StringMap α) (k : String) : Option α := Entries.find? k m.entries

def insert (m : StringMap α) (k : String) (v : α) : StringMap α :=
  ⟨Entries.insert k v m.entries, Entries.ordered_insert k v m.ordered⟩

def erase (m : StringMap α) (k : String) : StringMap α :=
  ⟨Entries.erase k m.entries, Entries.ordered_erase k m.ordered⟩

/-- of two entries with one key the later stays -/
def ofList (es : List (String × α)) : StringMap α := ⟨Entries.ofList es, Entries.ordered_ofList es⟩

def singleton (k : String) (v : α) : StringMap α := empty.insert k v

def values (m : StringMap α) : List α := m.entries.map Prod.snd

@[simp] theorem get?_singleton (k k' : String) (v : α) :
    (singleton k v).get? k' = if k' = k then some v else none :=
  Entries.find?_insert k k' v []

theorem get?_singleton_self (k : String) (v : α) : (singleton k v).get? k = some v := by
  rw [get?_singleton, if_pos rfl]

/-- what is found in a map of one entry -/
theorem get?_singleton_eq_some {k k' : String} {v x : α} : (singleton k v).get? k' = some x ↔ k' = k ∧ x = v := by
  rw [get?_singleton]
  by_cases hk : k' = k <;> simp [hk, eq_comm]

theorem insert_singleton (k : String) (v v' : α) : (singleton k v).insert k v' = singleton k v' := by
  have hentries : Entries.insert k v' [(k, v)] = [(k, v')] := by
    rw [Entries.insert, if_neg (String.lt_irrefl k), if_pos rfl]
  simp only [singleton, insert, empty, Entries.insert] at hentries ⊢
  simp only [hentries]

@[simp] theorem get?_insert (m : StringMap α) (k k' : String) (v : α) :
    (m.insert k v).get? k' = if k' = k then some v else m.get? k' :=
  Entries.find?_insert k k' v m.entries

theorem get?_insert_self (m : StringMap α) (k : String) (v : α) : (m.insert k v).get? k = some v := by
  rw [get?_insert, if_pos rfl]

/-- every value stands under a key -/
theorem exists_get?_of_mem_values {m : StringMap α} {v : α} (h : v ∈ m.values) : ∃ k, m.get? k = some v := by
  obtain ⟨e, he, rfl⟩ := List.mem_map.1 h
  exact ⟨e.1, Entries.find?_of_mem_of_ordered m.ordered he⟩

theorem eq_empty_of_entries_eq_nil {m : StringMap α} (h : m.entries = []) : m = .empty := by
  obtain ⟨es, hes⟩ := m
  obtain rfl : es = [] := h
  rfl

theorem exists_eq_singleton {m : StringMap α} (h : m.entries.length = 1) : ∃ k v, m = .singleton k v := by
  obtain ⟨es, hes⟩ := m
  obtain ⟨⟨k, v⟩, rfl⟩ : ∃ e, es = [e] := List.length_eq_one_iff.1 h
  exact ⟨k, v, rfl⟩

/-- a map of fewer than two entries has none or one -/
theorem eq_empty_or_singleton {m : StringMap α} (h : m.entries.length < 2) : m = .empty ∨ ∃ k v, m = .singleton k v := by
  rcases Nat.lt_or_ge m.entries.length 1 with hnone | hone
  · exact Or.inl (eq_empty_of_entries_eq_nil (List.length_eq_zero_iff.1 (Nat.lt_one_iff.1 hnone)))
  · exact Or.inr (exists_eq_singleton (Nat.le_antisymm (Nat.le_of_lt_succ h) hone))

end StringMap

end MigrationOperator
