/-
Codecs that lose nothing.

A codec is exact when it writes back what it read, and lossless when it does so member by member, up to fields at their
defaults and structures that it fills in. Scalars and maps are exact. A record that refuses unknown keys is lossless as
soon as its fields are (`Codec.lossless_record`), so the instances of a schema follow its columns, as in
`Proofs.Codec.Tidy`. The fields named `extra` are written whether or not they stood in the value.
-/
import MigrationOperator.Proofs.Codec.Documents
import MigrationOperator.Proofs.Codec.Paths
import MigrationOperator.Resource.Legacy

namespace MigrationOperator

/-- what stood under a name and what is written there: nothing is lost but a default, and nothing is new but structures,
and the field itself if it is an extra one -/
def Schema.Carried (s : Schema) (extra : Prop) : Option Json → Option Json → Prop
  | none, none => True
  | none, some w => ∀ p u, w.at? p = some u → s.recordAt p = true ∨ extra ∧ p = []
  | some e, none => s.vacant? = some e
  | some e, some w => s.Kept e w ∧ s.Added [] e w

/-- what is read is written back as it was -/
class Codec.Exact {α : Type} (c : Codec α) : Prop where
  write_eq : ∀ v x, v.Normal → c.schema.Fits v → c.decode v = .ok x → c.write x = v
  recordAt_eq : ∀ p, c.schema.recordAt p = false

/-- what is read is written back, member by member -/
class Codec.Lossless {α : Type} (c : Codec α) (extra : List String) : Prop where
  carried : ∀ v x, v.Normal → c.schema.Fits v → c.decode v = .ok x →
    c.schema.Kept v (c.write x) ∧ c.schema.Added extra v (c.write x)
  known : ∀ v x, v.Normal → c.decode v = .ok x → c.schema.Known v

/-- a structure, which reads the empty object as its default -/
class Codec.Structured {α : Type} [Inhabited α] (c : Codec α) : Prop extends c.Lossless [] where
  isRecord_eq : c.schema.isRecord = true
  decode_empty : c.decode (.obj []) = .ok default

/-- what a field takes is written back under its name -/
class Column.Lossless {α : Type} (c : Column α) (extra : List String) : Prop where
  carried : ∀ f x, (∀ e, f = some e → e.Normal ∧ c.schema.Fits e) → c.Takes f x →
    c.schema.Carried (c.name ∈ extra) f (if c.omitted x then none else some (c.codec.write x))
  known : ∀ e x, e.Normal → c.codec.decode e = .ok x → c.schema.Known e

/-- what the fields take is written back, name by name -/
class Columns.Lossless {ρ σ : Type} (columns : Columns ρ σ) (extra : List String) : Prop where
  fields : ∀ (f : String → Option Json) (row : ρ), columns.Takes f row → ∀ k ∈ columns.names,
    ∃ s, Entries.find? k columns.properties = some s ∧
      ((∀ e, f k = some e → e.Normal ∧ s.Fits e) → s.Carried (k ∈ extra) (f k) (columns.written? row k)) ∧
      ∀ e, f k = some e → e.Normal → s.Known e

/-! ## Scalars and maps -/

namespace Schema

theorem recordAt_of_scalar {s : Schema} (hs : s.isRecord = false) (hchild : ∀ k, s.child? k = none) (p : List String) :
    s.recordAt p = false := by
  cases p with
  | nil => exact hs
  | cons k p =>
    rw [recordAt, at?, hchild]
    rfl

end Schema

namespace Codec

variable {α : Type} (c : Codec α)

instance : text.Exact where
  write_eq v x _ _ h := by
    cases v with
    | str s => exact congrArg Json.str (Except.ok.inj h).symm
    | _ => exact absurd h nofun
  recordAt_eq := Schema.recordAt_of_scalar rfl fun _ => rfl

instance : flag.Exact where
  write_eq v x _ _ h := by
    cases v with
    | bool b => exact congrArg Json.bool (Except.ok.inj h).symm
    | _ => exact absurd h nofun
  recordAt_eq := Schema.recordAt_of_scalar rfl fun _ => rfl

instance : int32.Exact where
  write_eq v x _ _ h := by
    cases v with
    | int n => exact congrArg Json.int (Doc.int.inj (eq_int_of_read_int32 h)).symm
    | _ => exact absurd h nofun
  recordAt_eq := Schema.recordAt_of_scalar rfl fun _ => rfl

instance : Quantity.codec.Exact where
  write_eq v x _ hfits h := by
    obtain ⟨q, rfl⟩ := (hfits [] v rfl).2 rfl
    obtain rfl : Quantity.mk q = x := Except.ok.inj h
    rfl
  recordAt_eq := Schema.recordAt_of_scalar rfl fun _ => rfl

theorem fits_of_nullable {s : Schema} {v : Json} (hs : ∀ p, s.recordAt p = false) (h : (Schema.nullable s).Fits v) :
    s.Fits v := by
  intro p u hu
  refine ⟨fun hrecord => ?_, ?_⟩
  · rw [hs p] at hrecord
    exact absurd hrecord nofun
  · cases p with
    | nil => exact (h [] u hu).2
    | cons k p => exact (h (k :: p) u hu).2

instance [c.Exact] : c.nullable.Exact where
  write_eq v x hv hfits h := by
    have hsome : ∀ {y : Option α}, (c.decode v).map some = .ok y → c.nullable.write y = v := by
      intro y hy
      cases hread : c.decode v with
      | error e =>
        rw [hread] at hy
        exact absurd hy nofun
      | ok z =>
        rw [hread] at hy
        obtain rfl : some z = y := Except.ok.inj hy
        exact Exact.write_eq v z hv (fits_of_nullable (Exact.recordAt_eq (c := c)) hfits) hread
    cases v with
    | null =>
      obtain rfl : none = x := Except.ok.inj h
      rfl
    | _ => exact hsome h
  recordAt_eq p := by
    cases p with
    | nil => rfl
    | cons k p => exact Exact.recordAt_eq (c := c) (k :: p)

/-- the members of a map are written back in their order -/
theorem map_write_of_readMembers [c.Exact] {ms : List (String × Json)} {es : List (String × α)}
    (h : c.readMembers (Json.docMembers ms) = .ok es) (hms : ∀ m ∈ ms, m.2.Normal ∧ c.schema.Fits m.2) :
    es.map (fun e => (e.1, c.write e.2)) = ms := by
  induction ms generalizing es with
  | nil =>
    obtain rfl : [] = es := Except.ok.inj h
    rfl
  | cons m ms ih =>
    obtain ⟨k, v⟩ := m
    rw [Json.docMembers, readMembers] at h
    cases hx : c.read v.doc with
    | error e =>
      rw [hx] at h
      cases h
    | ok x =>
      cases hes : c.readMembers (Json.docMembers ms) with
      | error e =>
        rw [hx, hes] at h
        cases h
      | ok es' =>
        rw [hx, hes] at h
        obtain rfl : (k, x) :: es' = es := Except.ok.inj h
        obtain ⟨hnormal, hfits⟩ := hms _ List.mem_cons_self
        have hwrite : c.write x = v := Exact.write_eq v x hnormal hfits hx
        rw [List.map_cons, hwrite, ih hes fun m hm => hms m (List.mem_cons_of_mem _ hm)]

instance [c.Exact] : c.table.Exact where
  write_eq v x hv hfits h := by
    cases v with
    | obj ms =>
      change (c.table).read (.obj (Json.docMembers ms) .measured) = .ok x at h
      simp only [table] at h
      cases hes : c.readMembers (Json.docMembers ms) with
      | error e =>
        rw [hes] at h
        exact absurd h nofun
      | ok es =>
        rw [hes] at h
        obtain rfl : StringMap.ofList es = x := Except.ok.inj h
        have hmembers : ∀ m ∈ ms, m.2.Normal ∧ c.schema.Fits m.2 := by
          intro m hm
          have hget : (Json.obj ms).get? m.1 = some m.2 := Entries.find?_of_mem_of_ordered hv.1 hm
          exact ⟨hv.get? hget, hfits.get? rfl hget⟩
        have hmap := c.map_write_of_readMembers hes hmembers
        have hordered : Entries.Ordered es := by
          have hms : (es.map fun e => (e.1, c.write e.2)).Pairwise fun a b => a.1 < b.1 := hmap ▸ hv.1
          have hes := List.pairwise_map.1 hms
          exact hes
        show Json.obj ((Entries.ofList es).map fun e => (e.1, c.write e.2)) = .obj ms
        rw [Entries.ofList_of_ordered hordered, hmap]
    | _ => exact absurd h nofun
  recordAt_eq p := by
    cases p with
    | nil => rfl
    | cons k p => exact Exact.recordAt_eq (c := c) p

end Codec

/-! ## Fields -/

namespace Column

variable {α : Type} (name : String) (c : Codec α) (note : Option String) (extra : List String)

/-- notes and published defaults do not change what a schema says of a field -/
theorem alike_schema (c : Column α) : Schema.Alike c.schema c.codec.schema := by
  obtain ⟨name, codec, absent, beyond, omitted, note⟩ := c
  have hpublished (x : α) {s : Schema} (hs : s.Alike codec.schema) :
      Schema.Alike (if omitted x then s else .defaulted (codec.write x) s) codec.schema := by
    split
    · exact hs
    · exact (Schema.Alike.defaulted _ _).trans hs
  cases note with
  | none =>
    cases absent with
    | none => exact .refl _
    | some x => exact hpublished x (.refl _)
  | some note =>
    cases absent with
    | none => exact .described note _
    | some x => exact hpublished x (.described note _)

theorem known_of_exact (c : Column α) [c.codec.Exact] (e : Json) : c.schema.Known e := by
  rw [c.alike_schema.known_iff]
  intro p k hrecord
  rw [Codec.Exact.recordAt_eq (c := c.codec) p] at hrecord
  exact absurd hrecord nofun

/-- a field that is left out exactly at its default, and whose value is written back as it was -/
theorem lossless_of_exact {c : Column α} [c.codec.Exact] (habsent : ∀ x, c.absent = some x → c.omitted x = true)
    (homitted : ∀ x, c.omitted x = true → c.codec.schema.vacant? = some (c.codec.write x)) : c.Lossless extra where
  carried f x hf hx := by
    cases f with
    | none =>
      rw [if_pos (habsent x hx)]
      exact trivial
    | some e =>
      obtain ⟨hnormal, hfits⟩ := hf e rfl
      have hwrite : c.codec.write x = e :=
        Codec.Exact.write_eq e x hnormal (c.alike_schema.fits_iff.1 hfits) hx
      split
      · rename_i ho
        exact c.alike_schema.vacant.trans (hwrite ▸ homitted x ho)
      · rw [hwrite]
        exact ⟨.refl _ e, .refl _ [] e⟩
  known e _ _ _ := c.known_of_exact e

instance : (text name note).Lossless extra :=
  haveI : (text name note).codec.Exact := inferInstanceAs Codec.text.Exact
  lossless_of_exact extra (fun _ hx => Option.some.inj hx ▸ rfl) fun _ hx =>
    congrArg (fun s => some (Json.str s)) (String.isEmpty_iff.1 hx).symm

instance : (flag name note).Lossless extra :=
  haveI : (flag name note).codec.Exact := inferInstanceAs Codec.flag.Exact
  lossless_of_exact extra (fun _ hx => Option.some.inj hx ▸ rfl) fun x hx => by
    cases x with
    | false => rfl
    | true => exact absurd hx nofun

instance : (int32 name note).Lossless extra :=
  haveI : (int32 name note).codec.Exact := inferInstanceAs Codec.int32.Exact
  lossless_of_exact extra (fun _ hx => Option.some.inj hx ▸ rfl) fun x hx => by
    obtain rfl : x = 0 := beq_iff_eq.1 hx
    rfl

instance [c.Exact] : (optional name c note).Lossless extra :=
  haveI : (optional name c note).codec.Exact := inferInstanceAs c.nullable.Exact
  lossless_of_exact extra (fun _ hx => Option.some.inj hx ▸ rfl) fun x hx => by
    cases x with
    | none => rfl
    | some x => exact absurd hx nofun

instance [c.Exact] : (table name c note).Lossless extra :=
  haveI : (table name c note).codec.Exact := inferInstanceAs c.table.Exact
  lossless_of_exact extra (fun _ hx => Option.some.inj hx ▸ rfl) fun x hx => by
    obtain ⟨entries, hentries⟩ := x
    obtain rfl : entries = [] := List.isEmpty_iff.1 hx
    rfl

/-- a structure is written in any case, and where it was left out it holds nothing but structures -/
instance [Inhabited α] [hc : c.Structured] : (nested name c note).Lossless extra where
  carried f x hf hx := by
    have halike := (nested name c note).alike_schema
    cases f with
    | none =>
      obtain rfl : default = x := Option.some.inj hx
      have hfits : c.schema.Fits (.obj []) := by
        intro p u hu
        obtain ⟨rfl, rfl⟩ := (Json.at?_eq_some_iff_of_scalar rfl).1 hu
        have hscalar : c.schema.quantityAt [] = false :=
          Schema.not_isQuantity_of_isRecord (Codec.Structured.isRecord_eq (c := c))
        exact ⟨fun _ => ⟨[], rfl⟩, fun hquantity => absurd (hscalar.symm.trans hquantity) nofun⟩
      have hadded := (hc.carried (.obj []) default
        ⟨List.Pairwise.nil, trivial⟩ hfits Codec.Structured.decode_empty).2
      intro p u hu
      refine Or.inl ?_
      rw [halike.recordAt_eq]
      rcases hadded p u hu with hold | hrecord | ⟨k, hk, -⟩
      · obtain ⟨rfl, -⟩ := (Json.at?_eq_some_iff_of_scalar rfl).1 hold
        exact Codec.Structured.isRecord_eq (c := c)
      · exact hrecord
      · exact absurd hk List.not_mem_nil
    | some e =>
      obtain ⟨hnormal, hfits⟩ := hf e rfl
      obtain ⟨hkept, hadded⟩ := hc.carried e x hnormal
        (halike.fits_iff.1 hfits) hx
      exact ⟨halike.kept_iff.2 hkept, halike.added_iff.2 hadded⟩
  known e x he hx := by
    rw [(nested name c note).alike_schema.known_iff]
    exact hc.known e x he hx

/-- a scalar that is written in any case is an extra one -/
theorem lossless_nested_of_exact [Inhabited α] [c.Exact] (hname : name ∈ extra)
    (hscalar : (c.write default).members = []) : (nested name c note).Lossless extra where
  carried f x hf hx := by
    have halike := (nested name c note).alike_schema
    cases f with
    | none =>
      obtain rfl : default = x := Option.some.inj hx
      intro p u hu
      exact Or.inr ⟨hname, ((Json.at?_eq_some_iff_of_scalar hscalar).1 hu).1⟩
    | some e =>
      obtain ⟨hnormal, hfits⟩ := hf e rfl
      have hwrite : c.write x = e := Codec.Exact.write_eq e x hnormal (halike.fits_iff.1 hfits) hx
      show Schema.Kept _ e (c.write x) ∧ Schema.Added _ [] e (c.write x)
      rw [hwrite]
      exact ⟨.refl _ e, .refl _ [] e⟩
  known e _ _ _ :=
    haveI : (nested name c note).codec.Exact := inferInstanceAs c.Exact
    (nested name c note).known_of_exact e

end Column

/-! ## Records -/

namespace Columns

variable {ρ σ : Type} (extra : List String)

instance : Columns.nil.Lossless extra := ⟨nofun⟩

instance {α : Type} (c : Column α) (rest : Columns ρ σ) [hc : c.Lossless extra] [hrest : rest.Lossless extra] :
    (Columns.cons c rest).Lossless extra where
  fields f row hrow k hk := by
    obtain ⟨x, row⟩ := row
    obtain ⟨hx, hrow⟩ := hrow
    by_cases hname : k = c.name
    · subst hname
      refine ⟨c.schema, by rw [properties, Entries.find?, if_pos rfl], fun hf => ?_, fun e he hnormal => ?_⟩
      · rw [written?, if_pos rfl]
        exact hc.carried (f c.name) x hf hx
      · rw [he] at hx
        exact hc.known e x hnormal hx
    · obtain ⟨s, hs, hcarried, hknown⟩ := hrest.fields f row hrow k
        ((List.mem_cons.1 hk).resolve_left hname)
      refine ⟨s, by rw [properties, Entries.find?, if_neg hname, hs], fun hf => ?_, hknown⟩
      rw [written?, if_neg hname]
      exact hcarried hf

theorem mem_names_of_written? {columns : Columns ρ σ} {row : ρ} {k : String} {w : Json}
    (h : columns.written? row k = some w) : k ∈ columns.names := by
  induction columns with
  | nil => exact absurd h nofun
  | cons c rest ih =>
    obtain ⟨x, row⟩ := row
    rw [written?] at h
    by_cases hk : k = c.name
    · exact hk ▸ List.mem_cons_self
    · rw [if_neg hk] at h
      exact List.mem_cons_of_mem _ (ih h)

end Columns

namespace Schema

variable {s : Schema} {v w : Json} {properties : List (String × Schema)} {required : List String} {extra : List String}

/-- nothing is unknown in a value without members -/
theorem known_of_members_eq_nil (h : v.members = []) : s.Known v := by
  intro p k _ hsome
  obtain ⟨u, hu⟩ := Option.isSome_iff_exists.1 hsome
  have hnil := ((Json.at?_eq_some_iff_of_scalar h).1 hu).1
  exact absurd hnil (List.append_ne_nil_of_right_ne_nil p nofun)

/-- a record keeps what its fields keep -/
theorem kept_record (hw : ∃ ms, w = .obj ms)
    (h : ∀ k e, v.get? k = some e → ∃ t P, Entries.find? k properties = some t ∧ t.Carried P (some e) (w.get? k)) :
    (Schema.record properties required).Kept v w := by
  intro p u hu
  cases p with
  | nil => exact Or.inr (Or.inl ⟨rfl, hw.imp fun _ h => congrArg some h⟩)
  | cons k p =>
    obtain ⟨e, he, hu⟩ := Json.exists_get?_of_at?_cons hu
    obtain ⟨t, P, ht, hcarried⟩ := h k e he
    have hchild : (Schema.record properties required).child? k = some t := ht
    cases hget : w.get? k with
    | none =>
      rw [hget] at hcarried
      have hvacant : t.vacant? = some e := hcarried
      obtain ⟨rfl, rfl⟩ := (Json.at?_eq_some_iff_of_scalar (members_eq_nil_of_vacant hvacant)).1 hu
      exact Or.inr (Or.inr (defaultAt_single rfl hchild hvacant))
    | some e' =>
      rw [hget] at hcarried
      rw [Json.at?_cons_of_get? hget, recordAt_cons hchild]
      rcases hcarried.1 p u hu with hsame | hrecord | hdefault
      · exact Or.inl hsame
      · exact Or.inr (Or.inl hrecord)
      · exact Or.inr (Or.inr (hdefault.cons hchild))

/-- and adds what they add -/
theorem added_record (h : ∀ k e, w.get? k = some e →
      ∃ t, Entries.find? k properties = some t ∧ t.Carried (k ∈ extra) (v.get? k) (some e)) :
    (Schema.record properties required).Added extra v w := by
  intro p u hu
  cases p with
  | nil => exact Or.inr (Or.inl rfl)
  | cons k p =>
    obtain ⟨e, he, hu⟩ := Json.exists_get?_of_at?_cons hu
    obtain ⟨t, ht, hcarried⟩ := h k e he
    have hchild : (Schema.record properties required).child? k = some t := ht
    rw [recordAt_cons hchild]
    cases hget : v.get? k with
    | none =>
      rw [hget] at hcarried
      rcases hcarried p u hu with hrecord | ⟨hextra, rfl⟩
      · exact Or.inr (Or.inl hrecord)
      · exact Or.inr (Or.inr ⟨k, hextra, rfl⟩)
    | some e' =>
      rw [hget] at hcarried
      rw [Json.at?_cons_of_get? hget]
      rcases hcarried.2 p u hu with hsame | hrecord | ⟨k', hk', -⟩
      · exact Or.inl hsame
      · exact Or.inr (Or.inl hrecord)
      · exact absurd hk' List.not_mem_nil

/-- a record knows its members when they are fields, and their values are known in turn -/
theorem known_record (h : ∀ k e, v.get? k = some e → ∃ t, Entries.find? k properties = some t ∧ t.Known e) :
    (Schema.record properties required).Known v := by
  intro p k hrecord hsome
  obtain ⟨u, hu⟩ := Option.isSome_iff_exists.1 hsome
  cases p with
  | nil =>
    obtain ⟨e, he, -⟩ := Json.exists_get?_of_at?_cons hu
    obtain ⟨t, ht, -⟩ := h k e he
    have hchild : (Schema.record properties required).child? k = some t := ht
    rw [List.nil_append, at?_cons_of_child hchild]
    rfl
  | cons k' p =>
    rw [List.cons_append] at hu
    obtain ⟨e, he, hu⟩ := Json.exists_get?_of_at?_cons hu
    obtain ⟨t, ht, hknown⟩ := h k' e he
    have hchild : (Schema.record properties required).child? k' = some t := ht
    rw [List.cons_append, at?_cons_of_child hchild]
    rw [recordAt_cons hchild] at hrecord
    exact hknown p k hrecord (hu ▸ rfl)

end Schema

namespace Codec

variable {α ρ σ : Type} {title : String} {columns : Columns ρ σ} {row : α → ρ} {ofRow : ρ → α} {note : Option String}
  {extra : List String}

theorem alike_record (style : Style) : Schema.Alike (record style columns row ofRow note).schema
    (.record columns.properties columns.required) := by
  cases note with
  | none => exact .refl _
  | some note => exact .described note _

/-- a record that refuses unknown keys is lossless when its fields are -/
theorem lossless_record (hnames : columns.names.Nodup) (hrow : ∀ r, row (ofRow r) = r) [hcolumns : columns.Lossless extra] :
    (record (.closed title) columns row ofRow note).Lossless extra where
  carried v x hv hfits hx := by
    have halike : Schema.Alike (record (.closed title) columns row ofRow note).schema
        (.record columns.properties columns.required) := alike_record _
    have hfits := halike.fits_iff.1 hfits
    obtain ⟨ms, rfl⟩ := hfits.exists_obj rfl
    obtain ⟨⟨r, htakes, rfl⟩, hmembers⟩ := (decode_record_iff hnames hv.1).1 hx
    have hwritten : ∀ k, ((record (.closed title) columns row ofRow note).write (ofRow r)).get? k =
        columns.written? r k := fun k => (find?_write_record hnames (ofRow r) k).trans (by rw [hrow])
    have hfields := hcolumns.fields _ r htakes
    have hcarried : ∀ k ∈ columns.names, ∃ t, Entries.find? k columns.properties = some t ∧
        t.Carried (k ∈ extra) ((Json.obj ms).get? k) (columns.written? r k) := by
      intro k hk
      obtain ⟨t, ht, hcarried, -⟩ := hfields k hk
      exact ⟨t, ht, hcarried fun e he => ⟨hv.get? he, hfits.get? ht he⟩⟩
    rw [halike.kept_iff, halike.added_iff]
    constructor
    · refine Schema.kept_record ⟨_, rfl⟩ fun k e he => ?_
      have hk : k ∈ columns.names := hmembers rfl _ (Entries.mem_of_find? he)
      obtain ⟨t, ht, hcarried⟩ := hcarried k hk
      rw [he] at hcarried
      rw [hwritten]
      exact ⟨t, _, ht, hcarried⟩
    · refine Schema.added_record fun k e he => ?_
      rw [hwritten] at he
      obtain ⟨t, ht, hcarried⟩ := hcarried k (Columns.mem_names_of_written? he)
      rw [he] at hcarried
      exact ⟨t, ht, hcarried⟩
  known v x hv hx := by
    rw [(alike_record (.closed title)).known_iff]
    cases v with
    | obj ms =>
      obtain ⟨⟨r, htakes, rfl⟩, hmembers⟩ := (decode_record_iff hnames hv.1).1 hx
      refine Schema.known_record fun k e he => ?_
      have hk : k ∈ columns.names := hmembers rfl _ (Entries.mem_of_find? he)
      obtain ⟨t, ht, -, hknown⟩ := hcolumns.fields _ r htakes k hk
      exact ⟨t, ht, hknown e he (hv.get? he)⟩
    | _ => exact Schema.known_of_members_eq_nil rfl

end Codec

end MigrationOperator
