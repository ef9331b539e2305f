/-
What a record takes from a document.

`Proofs.Codec.Fields` reads records off values in memory, whose members stand in key order. A document has its members in
any order and may repeat them. A record that refuses repeated keys still takes each field from the one member of its
name (`Codec.of_read_record`), and a strict one knows every member. Maps take every member (`Codec.of_read_table`), and
of several under one key the last.
-/
import MigrationOperator.Proofs.Codec.Fields

namespace MigrationOperator

/-! ## Members of documents -/

namespace Doc

def members : Doc → List (String × Doc)
  | .obj members _ => members
  | _ => []

/-- the first member of this name -/
def get? (k : String) (d : Doc) : Option Doc := Entries.find? k d.members

mutual

/-- there is no list in the document, at any depth -/
def ListFree : Doc → Prop
  | .arr _ _ => False
  | .obj members _ => ListFreeMembers members
  | _ => True

def ListFreeMembers : List (String × Doc) → Prop
  | [] => True
  | (_, d) :: ds => d.ListFree ∧ ListFreeMembers ds

end

theorem listFreeMembers_iff {ms : List (String × Doc)} : ListFreeMembers ms ↔ ∀ m ∈ ms, m.2.ListFree := by
  induction ms with
  | nil => simp [ListFreeMembers]
  | cons m ms ih => simp [ListFreeMembers, ih]

theorem ListFree.of_mem {d : Doc} (h : d.ListFree) {m : String × Doc} (hm : m ∈ d.members) : m.2.ListFree := by
  cases d with
  | obj ms ending => exact listFreeMembers_iff.1 h m hm
  | _ => exact absurd hm List.not_mem_nil

theorem ListFree.get? {d e : Doc} (h : d.ListFree) {k : String} (he : d.get? k = some e) : e.ListFree :=
  h.of_mem (Entries.mem_of_find? he)

end Doc

/-! ## Fields -/

/-- an integer that is read is the one that stands there -/
theorem Codec.eq_int_of_read_int32 {d : Doc} {x : Int32} (h : int32.read d = .ok x) : d = .int x.toInt := by
  change (readInteger "i32" Int32.minValue.toInt Int32.maxValue.toInt d).map Int32.ofInt = .ok x at h
  cases d with
  | int n =>
    rw [readInteger] at h
    split at h
    · rename_i hrange
      obtain rfl : Int32.ofInt n = x := Except.ok.inj h
      have hmax : Int32.maxValue.toInt = 2147483647 := by decide
      have hlt : n < 2147483648 := by omega
      exact congrArg Doc.int (Int32.toInt_ofInt_of_le hrange.1 hlt).symm
    · cases h
  | _ => cases h

/-- the value of a field where a document has this under its name, or nothing -/
def Column.Reads {α : Type} (c : Column α) : Option Doc → α → Prop
  | none, x => c.absent = some x
  | some d, x => c.codec.read d = .ok x

namespace Columns

variable {ρ σ : Type} {style : Style}

/-- each field reads its value from what stands under its name -/
def Reads : {ρ σ : Type} → Columns ρ σ → (String → Option Doc) → ρ → Prop
  | _, _, .nil, _, _ => True
  | _, _, .cons c rest, f, (x, row) => c.Reads (f c.name) x ∧ rest.Reads f row

theorem reads_congr {columns : Columns ρ σ} {f g : String → Option Doc} {row : ρ}
    (h : ∀ k ∈ columns.names, f k = g k) : columns.Reads f row ↔ columns.Reads g row := by
  induction columns with
  | nil => exact Iff.rfl
  | cons c rest ih =>
    obtain ⟨x, row⟩ := row
    simp only [Reads]
    rw [h c.name List.mem_cons_self, ih fun k hk => h k (List.mem_cons_of_mem _ hk)]

end Columns

/-- a field that refuses a second value takes the only one there is, or its default -/
theorem Column.reads_of_gather {α : Type} {style : Style} {c : Column α} {ds : List Doc} {slot : Option α} {x : α}
    (hrepeats : style.repeats = false) (h : c.gather style ds none = .ok slot) (hx : slot.or c.absent = some x) :
    ds.length ≤ 1 ∧ c.Reads ds.head? x := by
  cases ds with
  | nil =>
    obtain rfl : none = slot := Except.ok.inj h
    exact ⟨Nat.zero_le _, hx⟩
  | cons d ds =>
    rw [gather] at h
    simp only [Option.isSome_none, Bool.false_and, Bool.false_eq_true, if_false] at h
    cases hread : c.codec.read d with
    | error e =>
      rw [hread] at h
      cases h
    | ok y =>
      rw [hread] at h
      change c.gather style ds (some y) = .ok slot at h
      cases ds with
      | nil =>
        obtain rfl : some y = slot := Except.ok.inj h
        obtain rfl := Option.some.inj hx
        exact ⟨Nat.le_refl _, hread⟩
      | cons d' ds =>
        rw [gather, hrepeats] at h
        cases h

namespace Columns

variable {ρ σ : Type} {style : Style}

/-- a record that refuses repeated keys reads each field from the one member of its name -/
theorem reads_of_scan {columns : Columns ρ σ} {ms : List (String × Doc)} {slots : σ} {row : ρ}
    (hrepeats : style.repeats = false) (hnames : columns.names.Nodup)
    (hscan : columns.scan style ms columns.empty = .ok slots) (hfinish : columns.finish slots = .ok row) :
    columns.Reads (Entries.find? · ms) row ∧ (∀ k ∈ columns.names, (Entries.under k ms).length ≤ 1) ∧
      (style.strict = true → ∀ m ∈ ms, m.1 ∈ columns.names) := by
  induction columns generalizing ms with
  | nil =>
    refine ⟨trivial, nofun, fun hstrict m hm => ?_⟩
    have hlax := (scan_nil_iff.1 hscan m hm).1
    exact absurd (hstrict.symm.trans hlax) nofun
  | cons c rest ih =>
    obtain ⟨x, row⟩ := row
    obtain ⟨slot, slots⟩ := slots
    obtain ⟨hc, hnames⟩ := List.nodup_cons.1 hnames
    obtain ⟨hgather, hrest⟩ := scan_cons_iff.1 hscan
    obtain ⟨hor, hfinish⟩ := finish_cons_iff.1 hfinish
    obtain ⟨hlength, hread⟩ := Column.reads_of_gather hrepeats hgather hor
    obtain ⟨hreads, hsingle, hknown⟩ := ih hnames hrest hfinish
    have hne : ∀ k ∈ rest.names, k ≠ c.name := fun k hk h => hc (h ▸ hk)
    have herase : ∀ k ∈ rest.names, Entries.find? k (Entries.erase c.name ms) = Entries.find? k ms := fun k hk => by
      rw [Entries.find?_erase, if_neg (hne k hk)]
    refine ⟨⟨?_, (reads_congr herase).1 hreads⟩, fun k hk => ?_, fun hstrict => erase_names_iff.1 (hknown hstrict)⟩
    · show c.Reads (Entries.find? c.name ms) x
      rw [Entries.find?_eq_head?]
      exact hread
    · rcases List.mem_cons.1 hk with rfl | hk
      · exact hlength
      · have hk' := hsingle k hk
        rwa [Entries.under_erase (hne k hk)] at hk'

/-! ### Lists of fields -/

/-- a field is read from the first element that is left -/
theorem readItems_cons_of_ok {α : Type} {c : Column α} {rest : Columns ρ σ} {wanted : String} {ending : Ending}
    {i : Nat} {d : Doc} {ds left : List Doc} {x : α} {row : ρ}
    (h : (Columns.cons c rest).readItems wanted ending i (d :: ds) = .ok ((x, row), left)) :
    c.codec.read d = .ok x ∧ rest.readItems wanted ending (i + 1) ds = .ok (row, left) := by
  rw [readItems] at h
  cases hx : c.codec.read d with
  | error e =>
    rw [hx] at h
    exact absurd h nofun
  | ok y =>
    cases hrest : rest.readItems wanted ending (i + 1) ds with
    | error e =>
      rw [hx, hrest] at h
      exact absurd h nofun
    | ok o =>
      rw [hx, hrest] at h
      obtain ⟨row', left'⟩ := o
      obtain ⟨hfields, rfl⟩ := Prod.mk.inj (Except.ok.inj h)
      obtain ⟨rfl, rfl⟩ := Prod.mk.inj hfields
      exact ⟨rfl, rfl⟩

/-- or has its default for that where the list is too short -/
theorem readItems_nil_of_ok {α : Type} {c : Column α} {rest : Columns ρ σ} {wanted : String} {ending : Ending}
    {i : Nat} {left : List Doc} {x : α} {row : ρ}
    (h : (Columns.cons c rest).readItems wanted ending i [] = .ok ((x, row), left)) :
    c.beyond = some x ∧ rest.readItems wanted ending i [] = .ok (row, left) := by
  rw [readItems] at h
  cases hend : ending.check with
  | error e =>
    rw [hend] at h
    exact absurd h nofun
  | ok u =>
    rw [hend] at h
    cases hc : c.beyond with
    | none =>
      rw [hc] at h
      exact absurd h nofun
    | some y =>
      cases hrest : rest.readItems wanted ending i [] with
      | error e =>
        rw [hc, hrest] at h
        exact absurd h nofun
      | ok o =>
        rw [hc, hrest] at h
        obtain ⟨hfields, rfl⟩ := Prod.mk.inj (Except.ok.inj h)
        obtain ⟨rfl, rfl⟩ := Prod.mk.inj hfields
        exact ⟨rfl, rfl⟩

/-- a list that is too short is refused where a field has no default for that -/
theorem readItems_nil_ne_ok {α : Type} {c : Column α} {rest : Columns ρ σ} {wanted : String} {ending : Ending}
    {i : Nat} {o : (α × ρ) × List Doc} (hc : c.beyond = none) :
    (Columns.cons c rest).readItems wanted ending i [] ≠ .ok o := by
  intro h
  have hbeyond := (readItems_nil_of_ok h).1
  rw [hc] at hbeyond
  exact absurd hbeyond nofun

end Columns

/-! ## Records and maps -/

namespace Codec

variable {α ρ σ : Type} {style : Style} {columns : Columns ρ σ} {row : α → ρ} {ofRow : ρ → α} {note : Option String}

theorem exists_row_of_read {d : Doc} {x : α} (h : (record style columns row ofRow note).read d = .ok x) :
    ∃ r, columns.read style d = .ok r ∧ ofRow r = x := by
  have h : (columns.read style d).map ofRow = .ok x := h
  cases hr : columns.read style d with
  | error e =>
    rw [hr] at h
    exact absurd h nofun
  | ok r =>
    rw [hr] at h
    exact ⟨r, rfl, Except.ok.inj h⟩

/-- a record that reads a list reads its fields off the elements in turn -/
theorem exists_readItems_of_read {items : List Doc} {ending : Ending} {x : α}
    (h : (record style columns row ofRow note).read (.arr items ending) = .ok x) :
    ∃ r left, columns.readItems (columns.shortage style) ending 0 items = .ok (r, left) ∧ ofRow r = x := by
  obtain ⟨r, hr, rfl⟩ := exists_row_of_read h
  rw [Columns.read] at hr
  cases hlisted : style.listed with
  | false =>
    rw [hlisted] at hr
    cases hr
  | true =>
    rw [hlisted] at hr
    cases hitems : columns.readItems (columns.shortage style) ending 0 items with
    | error e =>
      rw [hitems] at hr
      cases hr
    | ok o =>
      rw [hitems] at hr
      obtain ⟨r', left⟩ := o
      cases hsurplus : Columns.checkSurplus items.length left ending with
      | error e =>
        simp [hsurplus, bind, Except.bind] at hr
      | ok u =>
        simp only [hsurplus, bind, Except.bind, pure, Except.pure] at hr
        obtain rfl : r' = r := by simpa using hr
        exact ⟨r', left, rfl, rfl⟩

/-- a record takes its fields from the members of an object, none of which it meets twice -/
theorem exists_reads_of_read {ms : List (String × Doc)} {ending : Ending} {x : α} (hrepeats : style.repeats = false)
    (hnames : columns.names.Nodup) (h : (record style columns row ofRow note).read (.obj ms ending) = .ok x) :
    ∃ r, columns.Reads (Entries.find? · ms) r ∧ ofRow r = x ∧ (∀ k ∈ columns.names, (Entries.under k ms).length ≤ 1) ∧
      (style.strict = true → ∀ m ∈ ms, m.1 ∈ columns.names) := by
  obtain ⟨r, hr, hx⟩ := exists_row_of_read h
  rw [Columns.read] at hr
  cases hscan : columns.scan style ms columns.empty with
  | error e =>
    rw [hscan] at hr
    cases hr
  | ok slots =>
    rw [hscan] at hr
    cases hend : ending.check with
    | error e =>
      rw [hend] at hr
      cases hr
    | ok u =>
      rw [hend] at hr
      obtain ⟨hreads, hsingle, hknown⟩ := Columns.reads_of_scan hrepeats hnames hscan hr
      exact ⟨r, hreads, hx, hsingle, hknown⟩

/-- a record that reads a document other than a list takes its fields from the members, each of which it meets once -/
theorem of_read_record {d : Doc} {x : α} (hrepeats : style.repeats = false) (hnames : columns.names.Nodup)
    (hd : ∀ items ending, d ≠ .arr items ending) (h : (record style columns row ofRow note).read d = .ok x) :
    (∃ r, columns.Reads (d.get? ·) r ∧ ofRow r = x) ∧
      (style.strict = true → ∀ m ∈ d.members, m.1 ∈ columns.names ∧ d.get? m.1 = some m.2) := by
  cases d with
  | obj ms ending =>
    obtain ⟨r, hreads, hx, hsingle, hknown⟩ := exists_reads_of_read hrepeats hnames h
    refine ⟨⟨r, hreads, hx⟩, fun hstrict m hm => ?_⟩
    have hname := hknown hstrict m hm
    exact ⟨hname, Entries.find?_of_mem hm (hsingle m.1 hname)⟩
  | arr items ending => exact absurd rfl (hd items ending)
  | _ =>
    obtain ⟨r, hr, -⟩ := exists_row_of_read h
    cases hr

/-- a closed record knows every member, and meets each once -/
theorem of_read_closed {title : String} {d : Doc} {x : α} (hnames : columns.names.Nodup) (hd : d.ListFree)
    (h : (record (.closed title) columns row ofRow note).read d = .ok x) :
    (∃ r, columns.Reads (d.get? ·) r ∧ ofRow r = x) ∧ (∀ k, k ∉ columns.names → d.get? k = none) ∧
      ∀ m ∈ d.members, m.1 ∈ columns.names ∧ d.get? m.1 = some m.2 := by
  have hlist : ∀ items ending, d ≠ .arr items ending := by
    rintro items ending rfl
    exact hd
  obtain ⟨hreads, hmembers⟩ := of_read_record rfl hnames hlist h
  have hmembers := hmembers rfl
  refine ⟨hreads, fun k hk => ?_, hmembers⟩
  cases hget : d.get? k with
  | none => rfl
  | some e => exact absurd (hmembers _ (Entries.mem_of_find? hget)).1 hk

theorem of_readMembers {c : Codec α} {ms : List (String × Doc)} {es : List (String × α)}
    (h : c.readMembers ms = .ok es) :
    (∀ m ∈ ms, ∃ x, c.read m.2 = .ok x) ∧ ∀ e ∈ es, ∃ d, (e.1, d) ∈ ms ∧ c.read d = .ok e.2 := by
  induction ms generalizing es with
  | nil =>
    obtain rfl : [] = es := Except.ok.inj h
    exact ⟨List.forall_mem_nil _, List.forall_mem_nil _⟩
  | cons m ms ih =>
    obtain ⟨k, d⟩ := m
    rw [readMembers] at h
    cases hx : c.read d with
    | error e =>
      rw [hx] at h
      cases h
    | ok x =>
      cases hes : c.readMembers ms with
      | error e =>
        rw [hx, hes] at h
        cases h
      | ok es' =>
        rw [hx, hes] at h
        obtain rfl : (k, x) :: es' = es := Except.ok.inj h
        obtain ⟨hread, hfrom⟩ := ih hes
        refine ⟨fun m hm => ?_, fun e he => ?_⟩
        · rcases List.mem_cons.1 hm with rfl | hm
          · exact ⟨x, hx⟩
          · exact hread m hm
        · rcases List.mem_cons.1 he with rfl | he
          · exact ⟨d, List.mem_cons_self, hx⟩
          · obtain ⟨d', hd', hread'⟩ := hfrom e he
            exact ⟨d', List.mem_cons_of_mem _ hd', hread'⟩

/-- a map reads every member, and each of its entries is one that it read -/
theorem of_read_table {c : Codec α} {d : Doc} {t : StringMap α} (h : c.table.read d = .ok t) :
    (∀ m ∈ d.members, ∃ x, c.read m.2 = .ok x) ∧
      ∀ e ∈ t.entries, ∃ d', (e.1, d') ∈ d.members ∧ c.read d' = .ok e.2 := by
  cases d with
  | obj ms ending =>
    simp only [table] at h
    cases hes : c.readMembers ms with
    | error e =>
      rw [hes] at h
      cases h
    | ok es =>
      cases hend : ending.check with
      | error e =>
        rw [hes, hend] at h
        cases h
      | ok u =>
        rw [hes, hend] at h
        obtain rfl : StringMap.ofList es = t := Except.ok.inj h
        obtain ⟨hread, hfrom⟩ := of_readMembers hes
        exact ⟨hread, fun e he => hfrom e (Entries.mem_of_mem_ofList he)⟩
  | _ => cases h

end Codec

end MigrationOperator
