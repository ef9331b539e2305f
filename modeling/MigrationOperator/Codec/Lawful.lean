/-
Lawful codecs: what is written is read back.

Scalars are lawful, and nullable values, lists, maps and records keep what their parts keep. A record is read from any
object in which each of its fields stands as it is written (`Columns.read_of_shows`): the order of the members does not
matter, nor do further members that the record passes over. `Codec.record_keeps` is the case of the object that the
record itself writes.
-/
import MigrationOperator.Codec.Record
import MigrationOperator.Json.Normal

namespace MigrationOperator

namespace Codec

variable {α β : Type}

/-! ## Scalars -/

theorem lawful_text : text.Lawful := fun _ => rfl

theorem lawful_flag : flag.Lawful := fun _ => rfl

theorem lawful_int32 : int32.Lawful := by
  intro n
  show (readInteger "i32" Int32.minValue.toInt Int32.maxValue.toInt (.int n.toInt)).map Int32.ofInt = .ok n
  rw [readInteger, if_pos ⟨n.minValue_le_toInt, n.toInt_le⟩]
  simp [Except.map]

theorem lawful_int64 : int64.Lawful := by
  intro n
  show (readInteger "i64" Int64.minValue.toInt Int64.maxValue.toInt (.int n.toInt)).map Int64.ofInt = .ok n
  rw [readInteger, if_pos ⟨n.minValue_le_toInt, n.toInt_le⟩]
  simp [Except.map]

theorem value_keeps {j : Json} (h : j.Normal) : value.Keeps j := by
  simp [Keeps, value, Json.value_doc h]

/-! ## Composites -/

theorem imap_keeps {c : Codec α} {f : α → β} {g : β → α} {x : β} (h : c.Keeps (g x)) (hx : f (g x) = x) :
    (c.imap f g).Keeps x := by
  simp only [Keeps, imap]
  rw [h, Except.map, hx]

theorem nullable_keeps {c : Codec α} {x : α} (h : c.Keeps x) (hx : c.write x ≠ .null) : c.nullable.Keeps (some x) := by
  have key : ∀ d : Doc, d ≠ .null → c.read d = .ok x → c.nullable.read d = .ok (some x) := by
    intro d hd hr
    cases d <;> simp_all [nullable, Except.map]
  refine key _ ?_ h
  show (c.write x).doc ≠ .null
  cases hw : c.write x <;> simp_all [Json.doc]

theorem list_keeps {c : Codec α} {xs : List α} (h : ∀ x ∈ xs, c.Keeps x) : c.list.Keeps xs := by
  have key : ∀ ys : List α, (∀ y ∈ ys, c.Keeps y) → c.readList (Json.docList (ys.map c.write)) = .ok ys := by
    intro ys
    induction ys with
    | nil => intro _; rfl
    | cons y ys ih =>
      intro hy
      have h1 : c.read (c.write y).doc = .ok y := hy y List.mem_cons_self
      have h2 := ih fun z hz => hy z (List.mem_cons_of_mem _ hz)
      simp [Json.docList, readList, h1, h2, bind, Except.bind, pure, Except.pure]
  simp only [Keeps, list, Json.doc]
  rw [key xs h]
  rfl

theorem readMembers_write {c : Codec α} {es : List (String × α)} (h : ∀ e ∈ es, c.Keeps e.2) :
    c.readMembers (Json.docMembers (es.map fun e => (e.1, c.write e.2))) = .ok es := by
  induction es with
  | nil => rfl
  | cons e es ih =>
    have h1 : c.read (c.write e.2).doc = .ok e.2 := h e List.mem_cons_self
    have h2 := ih fun z hz => h z (List.mem_cons_of_mem _ hz)
    simp [Json.docMembers, readMembers, h1, h2, bind, Except.bind, pure, Except.pure]

theorem table_keeps {c : Codec α} {m : StringMap α} (h : ∀ e ∈ m.entries, c.Keeps e.2) : c.table.Keeps m := by
  simp only [Keeps, table, Json.doc]
  rw [readMembers_write h]
  simp [bind, Except.bind, pure, Except.pure, Ending.check, StringMap.ofList,
    Entries.ofList_of_ordered m.ordered]

theorem lawful_table {c : Codec α} (h : c.Lawful) : c.table.Lawful := fun _ => table_keeps fun e _ => h e.2

end Codec

/-! ## Fields -/

namespace Column

variable {α : Type}

/-- a field that is left out has its default, and one that is written is read back -/
def Keeps (c : Column α) (x : α) : Prop := if c.omitted x then c.absent = some x else c.codec.Keeps x

theorem keeps_of {c : Column α} {x : α} (h : c.codec.Keeps x) (ho : c.omitted x → c.absent = some x) : c.Keeps x := by
  unfold Keeps
  split
  · exact ho ‹_›
  · exact h

theorem text_keeps (name : String) (note : Option String) (x : String) : (text name note).Keeps x :=
  keeps_of (Codec.lawful_text x) fun h => by simp_all [text]

theorem flag_keeps (name : String) (note : Option String) (x : Bool) : (flag name note).Keeps x :=
  keeps_of (Codec.lawful_flag x) fun h => by simp_all [flag]

theorem int32_keeps (name : String) (note : Option String) (x : Int32) : (int32 name note).Keeps x :=
  keeps_of (Codec.lawful_int32 x) fun h => by simp_all [int32]

theorem table_keeps (name : String) {c : Codec α} (note : Option String) {m : StringMap α}
    (h : ∀ e ∈ m.entries, c.Keeps e.2) : (table name c note).Keeps m :=
  keeps_of (Codec.table_keeps h) fun hm => by
    obtain ⟨entries, ordered⟩ := m
    simp_all [table, StringMap.isEmpty, StringMap.empty]

theorem optional_keeps (name : String) {c : Codec α} (note : Option String) {x : Option α}
    (h : ∀ y, x = some y → c.Keeps y ∧ c.write y ≠ .null) : (optional name c note).Keeps x := by
  refine keeps_of ?_ fun hx => by simp_all [optional]
  cases x with
  | none => rfl
  | some y => exact Codec.nullable_keeps (h y rfl).1 (h y rfl).2

theorem nested_keeps (name : String) {c : Codec α} [Inhabited α] (note : Option String) {x : α} (h : c.Keeps x) :
    (nested name c note).Keeps x := by
  simpa [Keeps, nested] using h

theorem required_keeps (name : String) {c : Codec α} {x : α} (h : c.Keeps x) : (required name c).Keeps x := by
  simpa [Keeps, required] using h

/-- the field after the values under its name have been met in turn -/
def gather (style : Style) (c : Column α) : List Doc → Option α → Except DecodeError (Option α)
  | [], slot => .ok slot
  | d :: ds, slot =>
    if slot.isSome && !style.repeats then .error (.duplicateField c.name)
    else do
      let x ← c.codec.read d
      c.gather style ds (some x)

end Column

/-! ## Records -/

namespace Columns

variable {α ρ σ : Type} {style : Style}

/-- every field of the row is kept -/
def Keeps : {ρ σ : Type} → Columns ρ σ → ρ → Prop
  | _, _, .nil, _ => True
  | _, _, .cons c rest, (x, row) => c.Keeps x ∧ rest.Keeps row

/-- the fields that a row writes -/
def slots : {ρ σ : Type} → Columns ρ σ → ρ → σ
  | _, _, .nil, _ => ()
  | _, _, .cons c rest, (x, row) => (if c.omitted x then none else some x, rest.slots row)

theorem finish_slots {columns : Columns ρ σ} {row : ρ} (h : columns.Keeps row) :
    columns.finish (columns.slots row) = .ok row := by
  induction columns with
  | nil => rfl
  | cons c rest ih =>
    obtain ⟨x, row⟩ := row
    obtain ⟨hx, hrow⟩ := h
    have ih := ih hrow
    unfold Column.Keeps at hx
    by_cases ho : c.omitted x
    · simp_all [finish, slots, bind, Except.bind, pure, Except.pure]
    · simp_all [finish, slots, bind, Except.bind, pure, Except.pure]

theorem scan_nil_iff {members : List (String × Doc)} :
    (Columns.nil.scan style members () = .ok ()) ↔
      ∀ m ∈ members, style.strict = false ∧ m.2.skip = .ok () := by
  induction members with
  | nil => simp [scan]
  | cons m members ih =>
    obtain ⟨k, d⟩ := m
    simp only [scan, put, List.forall_mem_cons, ← ih]
    cases hs : style.strict <;> cases hd : d.skip <;>
      simp [bind, Except.bind, throw, throwThe, MonadExceptOf.throw]

/-- reading an object sorts its members by field: each field meets the values under its name, the rest meets the others -/
theorem scan_cons_iff {c : Column α} {rest : Columns ρ σ} {members : List (String × Doc)} {slot slot' : Option α}
    {slots slots' : σ} :
    (Columns.cons c rest).scan style members (slot, slots) = .ok (slot', slots') ↔
      c.gather style (Entries.under c.name members) slot = .ok slot' ∧
        rest.scan style (Entries.erase c.name members) slots = .ok slots' := by
  induction members generalizing slot slots with
  | nil => simp [scan, Column.gather, Entries.erase]
  | cons m members ih =>
    obtain ⟨k, d⟩ := m
    by_cases hk : k = c.name
    · subst hk
      have herase : Entries.erase c.name ((c.name, d) :: members) = Entries.erase c.name members := by
        simp [Entries.erase]
      rw [scan, put, if_pos rfl, Entries.under_cons, if_pos rfl, herase, Column.gather]
      by_cases hdup : (slot.isSome && !style.repeats) = true
      · simp [hdup, bind, Except.bind]
      · rw [if_neg hdup, if_neg hdup]
        cases c.codec.read d with
        | error e => simp [bind, Except.bind]
        | ok x => exact ih
    · have herase : Entries.erase c.name ((k, d) :: members) = (k, d) :: Entries.erase c.name members := by
        simp [Entries.erase, hk]
      have hk' : c.name ≠ k := fun h => hk h.symm
      rw [scan, put, if_neg hk, Entries.under_cons, if_neg hk', herase, scan]
      cases hput : rest.put style k d slots with
      | error e => simp [bind, Except.bind]
      | ok found =>
        cases found with
        | some slots₁ => exact ih
        | none =>
          cases hs : style.strict <;> cases hd : d.skip <;>
            simp [bind, Except.bind, pure, Except.pure, throw, throwThe, MonadExceptOf.throw, ih]

/-! ### What a row writes -/

theorem keys_write_sublist (columns : Columns ρ σ) (row : ρ) :
    ((columns.write row).map Prod.fst).Sublist columns.names := by
  induction columns with
  | nil => exact List.Sublist.slnil
  | cons c rest ih =>
    obtain ⟨x, row⟩ := row
    simp only [write, names]
    split
    · exact (ih row).cons _
    · exact (ih row).cons_cons _

theorem under_write_head {c : Column α} {rest : Columns ρ σ} (h : c.name ∉ rest.names) (x : α) (row : ρ) :
    Entries.under c.name ((Columns.cons c rest).write (x, row)) = if c.omitted x then [] else [c.codec.write x] := by
  have hrest : Entries.under c.name (rest.write row) = [] :=
    Entries.under_eq_nil fun hm => h ((keys_write_sublist rest row).subset hm)
  rw [write]
  split
  · exact hrest
  · rw [Entries.under_cons, if_pos rfl, hrest]

theorem under_write_tail {c : Column α} {rest : Columns ρ σ} {k : String} (h : k ≠ c.name) (x : α) (row : ρ) :
    Entries.under k ((Columns.cons c rest).write (x, row)) = Entries.under k (rest.write row) := by
  rw [write]
  split
  · rfl
  · rw [Entries.under_cons, if_neg h]

/-! ### Reading what is written -/

/-- members of an object from which a row can be read: each field stands as it is written, and the rest is passed over -/
structure Shows (style : Style) (columns : Columns ρ σ) (row : ρ) (members : List (String × Doc)) : Prop where
  fields : ∀ k ∈ columns.names, Entries.under k members = (Entries.under k (columns.write row)).map Json.doc
  others : ∀ m ∈ members, m.1 ∉ columns.names → style.strict = false ∧ m.2.skip = .ok ()

theorem scan_of_shows {columns : Columns ρ σ} {row : ρ} {members : List (String × Doc)} (hnames : columns.names.Nodup)
    (hrow : columns.Keeps row) (h : columns.Shows style row members) :
    columns.scan style members columns.empty = .ok (columns.slots row) := by
  induction columns generalizing members with
  | nil => exact scan_nil_iff.2 fun m hm => h.others m hm (by simp [names])
  | cons c rest ih =>
    obtain ⟨x, row⟩ := row
    obtain ⟨hc, hnames⟩ := List.nodup_cons.1 hnames
    refine scan_cons_iff.2 ⟨?_, ih hnames hrow.2 ⟨fun k hk => ?_, fun m hm hmn => ?_⟩⟩
    · have hx := hrow.1
      rw [h.fields c.name List.mem_cons_self, under_write_head hc]
      unfold Column.Keeps at hx
      by_cases ho : c.omitted x
      · simp [ho, Column.gather]
      · rw [if_neg ho] at hx
        have hread : c.codec.read (c.codec.write x).doc = .ok x := hx
        simp [ho, Column.gather, hread, bind, Except.bind]
    · have hne : k ≠ c.name := fun he => hc (he ▸ hk)
      rw [Entries.under_erase hne, h.fields k (List.mem_cons_of_mem _ hk), under_write_tail hne]
    · have hm := List.mem_filter.1 hm
      exact h.others m hm.1 fun hmem => by
        rcases List.mem_cons.1 hmem with he | hmem
        · simp [he] at hm
        · exact hmn hmem

theorem read_of_shows {columns : Columns ρ σ} {row : ρ} {members : List (String × Doc)} {ending : Ending}
    (hnames : columns.names.Nodup) (hrow : columns.Keeps row) (h : columns.Shows style row members)
    (hend : ending.check = .ok ()) : columns.read style (.obj members ending) = .ok row := by
  rw [read, scan_of_shows hnames hrow h, hend]
  exact finish_slots hrow

/-- the object that a row writes shows it -/
theorem shows_write (columns : Columns ρ σ) (hnames : columns.names.Nodup) (row : ρ) :
    columns.Shows style row (Json.docMembers (Entries.ofList (columns.write row))) := by
  have hkeys := keys_write_sublist columns row
  refine ⟨fun k _ => ?_, fun m hm hmn => absurd ?_ hmn⟩
  · rw [Json.under_docMembers, Entries.under_ofList (hkeys.nodup hnames)]
  · exact hkeys.subset (Entries.keys_ofList_subset (Json.keys_docMembers _ ▸ List.mem_map_of_mem hm))

/-- a record that passes over unknown keys is shown by any object in memory whose fields stand as they are written -/
theorem shows_docMembers {columns : Columns ρ σ} {row : ρ} {ms : List (String × Json)} (hstyle : style.strict = false)
    (h : ∀ k ∈ columns.names, Entries.under k ms = Entries.under k (columns.write row)) :
    columns.Shows style row (Json.docMembers ms) := by
  refine ⟨fun k hk => by rw [Json.under_docMembers, h k hk], fun m hm _ => ⟨hstyle, ?_⟩⟩
  obtain ⟨v, hv⟩ := Json.eq_doc_of_mem_docMembers hm
  rw [hv, Json.skip_doc]

end Columns

namespace Codec

variable {α ρ σ : Type} {style : Style} {columns : Columns ρ σ} {row : α → ρ} {ofRow : ρ → α} {note : Option String}

theorem record_read_of_shows {x : α} {members : List (String × Doc)} {ending : Ending} (hnames : columns.names.Nodup)
    (hrow : columns.Keeps (row x)) (hx : ofRow (row x) = x) (h : columns.Shows style (row x) members)
    (hend : ending.check = .ok ()) : (record style columns row ofRow note).read (.obj members ending) = .ok x := by
  show (columns.read style (.obj members ending)).map ofRow = .ok x
  rw [Columns.read_of_shows hnames hrow h hend, Except.map, hx]

theorem record_keeps {x : α} (hnames : columns.names.Nodup) (hrow : columns.Keeps (row x)) (hx : ofRow (row x) = x) :
    (record style columns row ofRow note).Keeps x :=
  record_read_of_shows hnames hrow hx (columns.shows_write hnames (row x)) rfl

end Codec

end MigrationOperator
