/-
Records are read field by field.

`Columns.Takes` says of each field of a record what it takes from an object: the value under its name, or its default
where the object has no such member. A record reads an object exactly when it takes a row from it and, if it is strict,
the object has no other members (`Codec.decode_record_iff`). Hence a value is decoded from every object that agrees with
another one on the fields, and a strict record refuses each object with a member it does not know.
-/
import MigrationOperator.Codec.Lawful

namespace MigrationOperator

/-! ## Members of values in documents -/

namespace Json

theorem docMembers_erase (k : String) (ms : List (String × Json)) :
    docMembers (Entries.erase k ms) = Entries.erase k (docMembers ms) := by
  induction ms with
  | nil => rfl
  | cons m ms ih =>
    obtain ⟨k', v⟩ := m
    by_cases h : k' = k <;> simp_all [Entries.erase, docMembers]

theorem under_docMembers_of_ordered {ms : List (String × Json)} (h : Entries.Ordered ms) (k : String) :
    Entries.under k (docMembers ms) = ((Entries.find? k ms).map Json.doc).toList := by
  rw [under_docMembers, Entries.under_eq_toList h]
  cases Entries.find? k ms <;> rfl

end Json

/-! ## What a field takes -/

/-- the value of a field where an object has this under its name, or nothing -/
def Column.Takes {α : Type} (c : Column α) : Option Json → α → Prop
  | none, x => c.absent = some x
  | some j, x => c.codec.decode j = .ok x

namespace Column

variable {α : Type}

theorem gather_iff_takes {style : Style} {c : Column α} {j : Option Json} {x : α} :
    (∃ slot, c.gather style (j.map Json.doc).toList none = .ok slot ∧ slot.or c.absent = some x) ↔ c.Takes j x := by
  cases j with
  | none => simp [gather, Takes]
  | some j =>
    simp only [Option.map_some, Option.toList_some, gather, Option.isSome_none, Bool.false_and, Bool.false_eq_true,
      if_false, Takes, Codec.decode]
    cases c.codec.read j.doc <;> simp [bind, Except.bind]

/-- what a field takes back from what is written of it -/
theorem takes_written_iff {c : Column α} {x x' : α} (h : c.Keeps x) :
    c.Takes (if c.omitted x then none else some (c.codec.write x)) x' ↔ x = x' := by
  unfold Keeps at h
  by_cases ho : c.omitted x
  · simp_all [Takes]
  · rw [if_neg ho] at h ⊢
    have hread : c.codec.decode (c.codec.write x) = .ok x := h
    simp [Takes, hread]

end Column

namespace Columns

variable {ρ σ : Type} {style : Style}

/-- each field takes its value from what stands under its name -/
def Takes : {ρ σ : Type} → Columns ρ σ → (String → Option Json) → ρ → Prop
  | _, _, .nil, _, _ => True
  | _, _, .cons c rest, f, (x, row) => c.Takes (f c.name) x ∧ rest.Takes f row

theorem takes_congr {columns : Columns ρ σ} {f g : String → Option Json} {row : ρ}
    (h : ∀ k ∈ columns.names, f k = g k) : columns.Takes f row ↔ columns.Takes g row := by
  induction columns with
  | nil => exact Iff.rfl
  | cons c rest ih =>
    obtain ⟨x, row⟩ := row
    simp only [Takes]
    rw [h c.name List.mem_cons_self, ih fun k hk => h k (List.mem_cons_of_mem _ hk)]

theorem scan_finish_nil_iff {ms : List (String × Json)} :
    (∃ slots, Columns.nil.scan style (Json.docMembers ms) () = .ok slots ∧ Columns.nil.finish slots = .ok ()) ↔
      (style.strict = true → ms = []) := by
  have hscan : (∃ slots, Columns.nil.scan style (Json.docMembers ms) () = .ok slots ∧ Columns.nil.finish slots = .ok ()) ↔
      ∀ m ∈ Json.docMembers ms, style.strict = false ∧ m.2.skip = .ok () :=
    ⟨fun ⟨_, h, _⟩ => scan_nil_iff.1 h, fun h => ⟨(), scan_nil_iff.2 h, rfl⟩⟩
  rw [hscan]
  constructor
  · intro h hs
    cases ms with
    | nil => rfl
    | cons m ms =>
      have hlax := (h _ (List.mem_cons_self (a := (m.1, m.2.doc)))).1
      exact absurd (hs.symm.trans hlax) nofun
  · intro h d hd
    cases hs : style.strict with
    | false =>
      obtain ⟨v, hv⟩ := Json.eq_doc_of_mem_docMembers hd
      exact ⟨rfl, by rw [hv, Json.skip_doc]⟩
    | true =>
      rw [h hs] at hd
      exact absurd hd List.not_mem_nil

theorem finish_cons_iff {α ρ σ : Type} {c : Column α} {rest : Columns ρ σ} {slot : Option α} {slots : σ} {x : α}
    {row : ρ} : (Columns.cons c rest).finish (slot, slots) = .ok (x, row) ↔
      slot.or c.absent = some x ∧ rest.finish slots = .ok row := by
  rw [finish]
  cases slot.or c.absent with
  | none => simp [bind, Except.bind]
  | some y => cases rest.finish slots <;> simp [bind, Except.bind, pure, Except.pure]

/-- the members besides one field are those of the others -/
theorem erase_names_iff {α : Type} {k : String} {names : List String} {ms : List (String × α)} :
    (∀ m ∈ Entries.erase k ms, m.1 ∈ names) ↔ ∀ m ∈ ms, m.1 ∈ k :: names := by
  simp only [Entries.erase, List.mem_filter, List.mem_cons]
  constructor
  · intro h m hm
    by_cases hk : m.1 = k
    · exact Or.inl hk
    · exact Or.inr (h m ⟨hm, by simp [hk]⟩)
  · rintro h m ⟨hm, hk⟩
    exact (h m hm).resolve_left (by simpa using hk)

/-- a record reads an object field by field, each from what stands under its name -/
theorem scan_finish_iff {columns : Columns ρ σ} {ms : List (String × Json)} {row : ρ} (hnames : columns.names.Nodup)
    (hms : Entries.Ordered ms) :
    (∃ slots, columns.scan style (Json.docMembers ms) columns.empty = .ok slots ∧ columns.finish slots = .ok row) ↔
      columns.Takes (Entries.find? · ms) row ∧ (style.strict = true → ∀ m ∈ ms, m.1 ∈ columns.names) := by
  induction columns generalizing ms with
  | nil =>
    rw [empty, scan_finish_nil_iff]
    simp [Takes, names, List.eq_nil_iff_forall_not_mem]
  | cons c rest ih =>
    obtain ⟨x, row⟩ := row
    obtain ⟨hc, hnames⟩ := List.nodup_cons.1 hnames
    have herase : ∀ k ∈ rest.names, Entries.find? k (Entries.erase c.name ms) = Entries.find? k ms := fun k hk => by
      have hne : k ≠ c.name := fun h => hc (h ▸ hk)
      rw [Entries.find?_erase, if_neg hne]
    have hrest := @ih (Entries.erase c.name ms) row hnames (Entries.ordered_erase c.name hms)
    rw [takes_congr herase, erase_names_iff] at hrest
    have hsplit : (∃ slots, (Columns.cons c rest).scan style (Json.docMembers ms) (Columns.cons c rest).empty = .ok slots ∧
          (Columns.cons c rest).finish slots = .ok (x, row)) ↔
        (∃ slot, c.gather style ((Entries.find? c.name ms).map Json.doc).toList none = .ok slot ∧
          slot.or c.absent = some x) ∧
        ∃ slots, rest.scan style (Json.docMembers (Entries.erase c.name ms)) rest.empty = .ok slots ∧
          rest.finish slots = .ok row := by
      rw [Json.docMembers_erase, ← Json.under_docMembers_of_ordered hms]
      constructor
      · rintro ⟨⟨slot, slots⟩, hscan, hfinish⟩
        obtain ⟨hg, hs⟩ := scan_cons_iff.1 hscan
        obtain ⟨hor, hr⟩ := finish_cons_iff.1 hfinish
        exact ⟨⟨slot, hg, hor⟩, slots, hs, hr⟩
      · rintro ⟨⟨slot, hg, hor⟩, slots, hs, hr⟩
        exact ⟨(slot, slots), scan_cons_iff.2 ⟨hg, hs⟩, finish_cons_iff.2 ⟨hor, hr⟩⟩
    rw [hsplit, hrest, Column.gather_iff_takes, Takes, and_assoc]
    rfl

/-- what a row writes under a name -/
def written? : {ρ σ : Type} → Columns ρ σ → ρ → String → Option Json
  | _, _, .nil, _, _ => none
  | _, _, .cons c rest, (x, row), k =>
    if k = c.name then if c.omitted x then none else some (c.codec.write x) else rest.written? row k

theorem find?_write {columns : Columns ρ σ} (hnames : columns.names.Nodup) (row : ρ) (k : String) :
    Entries.find? k (Entries.ofList (columns.write row)) = columns.written? row k := by
  induction columns with
  | nil => rfl
  | cons c rest ih =>
    obtain ⟨x, row⟩ := row
    obtain ⟨hc, hnames⟩ := List.nodup_cons.1 hnames
    rw [written?, Entries.find?_ofList]
    by_cases hk : k = c.name
    · subst hk
      rw [if_pos rfl, under_write_head hc]
      split <;> rfl
    · rw [if_neg hk, under_write_tail hk, ← Entries.find?_ofList, ih hnames]

/-- what the fields take back from what is written of each -/
def Rereads : {ρ σ : Type} → Columns ρ σ → ρ → ρ → Prop
  | _, _, .nil, _, _ => True
  | _, _, .cons c rest, (x, row), (x', row') =>
    c.Takes (if c.omitted x then none else some (c.codec.write x)) x' ∧ rest.Rereads row row'

theorem takes_write_iff {columns : Columns ρ σ} {row row' : ρ} (hnames : columns.names.Nodup) :
    columns.Takes (fun k => Entries.find? k (Entries.ofList (columns.write row))) row' ↔ columns.Rereads row row' := by
  induction columns with
  | nil => exact Iff.rfl
  | cons c rest ih =>
    obtain ⟨x, row⟩ := row
    obtain ⟨x', row'⟩ := row'
    have hwritten : ∀ k, Entries.find? k (Entries.ofList ((Columns.cons c rest).write (x, row))) =
        (Columns.cons c rest).written? (x, row) k := find?_write hnames (x, row)
    obtain ⟨hc, hnames⟩ := List.nodup_cons.1 hnames
    have hrest : ∀ k ∈ rest.names, (Columns.cons c rest).written? (x, row) k =
        Entries.find? k (Entries.ofList (rest.write row)) := by
      intro k hk
      have hne : k ≠ c.name := fun h => hc (h ▸ hk)
      rw [find?_write hnames, written?, if_neg hne]
    simp only [Takes, Rereads, hwritten]
    rw [takes_congr hrest, ih hnames, written?, if_pos rfl]

end Columns

namespace Codec

variable {α ρ σ : Type} {style : Style} {columns : Columns ρ σ} {row : α → ρ} {ofRow : ρ → α} {note : Option String}

/-- a record reads an object exactly when its fields take a row from it and nothing unknown stands in a strict one -/
theorem decode_record_iff {ms : List (String × Json)} {x : α} (hnames : columns.names.Nodup)
    (hms : Entries.Ordered ms) :
    (record style columns row ofRow note).decode (.obj ms) = .ok x ↔
      (∃ r, columns.Takes (Entries.find? · ms) r ∧ ofRow r = x) ∧
        (style.strict = true → ∀ m ∈ ms, m.1 ∈ columns.names) := by
  have hread : ∀ r, columns.read style (.obj (Json.docMembers ms) .measured) = .ok r ↔
      ∃ slots, columns.scan style (Json.docMembers ms) columns.empty = .ok slots ∧ columns.finish slots = .ok r := by
    intro r
    rw [Columns.read]
    cases columns.scan style (Json.docMembers ms) columns.empty <;> simp [bind, Except.bind, Ending.check]
  have hmap : (record style columns row ofRow note).decode (.obj ms) = .ok x ↔
      ∃ r, columns.read style (.obj (Json.docMembers ms) .measured) = .ok r ∧ ofRow r = x := by
    show (columns.read style (.obj (Json.docMembers ms) .measured)).map ofRow = .ok x ↔ _
    cases columns.read style (.obj (Json.docMembers ms) .measured) <;> simp [Except.map]
  rw [hmap]
  simp only [hread, Columns.scan_finish_iff hnames hms]
  constructor
  · rintro ⟨r, ⟨ht, hs⟩, hx⟩
    exact ⟨⟨r, ht, hx⟩, hs⟩
  · rintro ⟨⟨r, ht, hx⟩, hs⟩
    exact ⟨r, ⟨ht, hs⟩, hx⟩

/-- what stands under a name in the object that a record writes -/
theorem find?_write_record (hnames : columns.names.Nodup) (x : α) (k : String) :
    Entries.find? k ((record style columns row ofRow note).write x).members = columns.written? (row x) k :=
  Columns.find?_write hnames (row x) k

/-- what a record reads back from what it writes -/
theorem decode_write_record_iff {x x' : α} (hnames : columns.names.Nodup) :
    (record style columns row ofRow note).decode ((record style columns row ofRow note).write x) = .ok x' ↔
      ∃ r, columns.Rereads (row x) r ∧ ofRow r = x' := by
  have hwrite : (record style columns row ofRow note).write x = .obj (Entries.ofList (columns.write (row x))) := rfl
  rw [hwrite, decode_record_iff hnames (Entries.ordered_ofList _)]
  simp only [Columns.takes_write_iff hnames]
  refine and_iff_left fun _ m hm => ?_
  exact (Columns.keys_write_sublist columns (row x)).subset (Entries.keys_ofList_subset (List.mem_map_of_mem hm))

/-- a strict record refuses an object with a member that is none of its fields -/
theorem decode_record_ne_ok {ms : List (String × Json)} (hstrict : style.strict = true) (hnames : columns.names.Nodup)
    (hms : Entries.Ordered ms) {k : String} (hk : k ∈ ms.map Prod.fst) (hunknown : k ∉ columns.names) (x : α) :
    (record style columns row ofRow note).decode (.obj ms) ≠ .ok x := by
  intro h
  obtain ⟨m, hm, rfl⟩ := List.mem_map.1 hk
  exact hunknown (((decode_record_iff hnames hms).1 h).2 hstrict m hm)

end Codec

end MigrationOperator
