/-
Values under a published schema.

The cluster holds an object against the schema that a definition publishes for its version, and it does so twice. Validation
(`accepts`) asks for the types, the range of integers and the required members; pruning (`prune`) drops each member that
the schema has no place for, without a word. Both go down through all members and items, and both read the schema as the
document that is published.

A value fits a schema when it passes the one and is left alone by the other. `fits_obj_iff` says what that means for the
members of an object, `Fits.at?` follows a path into the value and the schema at once, and `Fits.relax` covers the
keywords that only inform. The last section says what fits each form of a `Schema`, and that no form is published with a
keyword that is passed over here although it constrains (`key_mem_of_mem_json`).
-/
import MigrationOperator.Proofs.Codec.Paths

namespace MigrationOperator

namespace OpenApi

/-! ## Keywords -/

/-- a switch that a schema may leave out -/
def isOn (keyword : String) (s : Json) : Bool :=
  match s.get? keyword with
  | some (.bool b) => b
  | _ => false

/-- values of this type may stand here; without a type, all may -/
def allows (s : Json) (type : String) : Bool :=
  if isOn "x-kubernetes-int-or-string" s then type == "integer" || type == "string"
  else (s.get? "type").all fun t => t.asString? == some type

/-- integers of 32 bits have a format of their own -/
def inRange (s : Json) (n : Int) : Bool :=
  (s.get? "format").bind Json.asString? != some "int32" || decide (-2147483648 ≤ n ∧ n ≤ 2147483647)

/-- the members that an object must have -/
def required (s : Json) : List String :=
  match s.get? "required" with
  | some (.arr names) => names.filterMap Json.asString?
  | _ => []

/-- the schema of a member: properties are declared by name, and only without them one schema is for every name -/
def member? (k : String) (s : Json) : Option Json :=
  match s.get? "properties" with
  | some properties => properties.get? k
  | none => s.get? "additionalProperties"

/-- the schema of items -/
def item (s : Json) : Json := (s.get? "items").getD (.obj [])

/-- the schema of what stands at a path of member names -/
def at? : List String → Json → Option Json
  | [], s => some s
  | k :: ks, s => (member? k s).bind (at? ks)

/-! ## Validation and pruning -/

mutual

/-- the value and all that it holds are as the schema says -/
def accepts (s : Json) : Json → Bool
  | .null => isOn "nullable" s
  | .bool _ => allows s "boolean"
  | .int n => allows s "integer" && inRange s n
  | .float _ => allows s "number"
  | .str _ => allows s "string"
  | .arr vs => allows s "array" && acceptsItems (item s) vs
  | .obj ms => allows s "object" && (required s).all (fun k => ms.any (·.1 == k)) && acceptsMembers s ms

def acceptsItems (s : Json) : List Json → Bool
  | [] => true
  | v :: vs => accepts s v && acceptsItems s vs

/-- a member that is not declared is passed over -/
def acceptsMembers (s : Json) : List (String × Json) → Bool
  | [] => true
  | (k, v) :: ms => ((member? k s).all fun t => accepts t v) && acceptsMembers s ms

end

mutual

/-- the value without the members that are not declared, all the way down -/
def prune (s : Json) : Json → Json
  | .arr vs => .arr (pruneItems (item s) vs)
  | .obj ms => .obj (pruneMembers s ms)
  | .null => .null
  | .bool b => .bool b
  | .int n => .int n
  | .float x => .float x
  | .str t => .str t

def pruneItems (s : Json) : List Json → List Json
  | [] => []
  | v :: vs => prune s v :: pruneItems s vs

def pruneMembers (s : Json) : List (String × Json) → List (String × Json)
  | [] => []
  | (k, v) :: ms =>
    match member? k s with
    | some t => (k, prune t v) :: pruneMembers s ms
    | none => pruneMembers s ms

end

/-- the value is valid, and all of it is declared -/
structure Fits (s v : Json) : Prop where
  accepted : accepts s v = true
  pruned : prune s v = v

/-! ## Members -/

variable {s t v : Json} {ms : List (String × Json)}

theorem acceptsMembers_iff :
    acceptsMembers s ms = true ↔ ∀ m ∈ ms, ∀ t, member? m.1 s = some t → accepts t m.2 = true := by
  induction ms with
  | nil => simp [acceptsMembers]
  | cons m ms ih =>
    obtain ⟨k, v⟩ := m
    rw [acceptsMembers, Bool.and_eq_true, ih, List.forall_mem_cons]
    cases member? k s <;> simp

/-- members that are missing after pruning are made up for by none -/
theorem length_pruneMembers_le (s : Json) (ms : List (String × Json)) : (pruneMembers s ms).length ≤ ms.length := by
  induction ms with
  | nil => simp [pruneMembers]
  | cons m ms ih =>
    obtain ⟨k, v⟩ := m
    rw [pruneMembers]
    split
    · simpa using ih
    · simp only [List.length_cons]
      omega

/-- pruning leaves alone what is declared, and nothing else -/
theorem pruneMembers_eq_self_iff :
    pruneMembers s ms = ms ↔ ∀ m ∈ ms, ∃ t, member? m.1 s = some t ∧ prune t m.2 = m.2 := by
  induction ms with
  | nil => simp [pruneMembers]
  | cons m ms ih =>
    obtain ⟨k, v⟩ := m
    rw [pruneMembers, List.forall_mem_cons, ← ih]
    cases hk : member? k s with
    | some t => simp
    | none =>
      have hlength := length_pruneMembers_le s ms
      constructor
      · intro h
        have hmore := congrArg List.length h
        simp only [List.length_cons] at hmore
        omega
      · rintro ⟨⟨t, ht, -⟩, -⟩
        cases ht

/-- an object is valid when it has the required members, and each that is declared is valid in its place -/
theorem accepts_obj_iff :
    accepts s (.obj ms) = true ↔ allows s "object" = true ∧ (∀ k ∈ required s, k ∈ ms.map Prod.fst) ∧
      ∀ m ∈ ms, ∀ t, member? m.1 s = some t → accepts t m.2 = true := by
  have hkeys : ((required s).all fun k => ms.any (·.1 == k)) = true ↔ ∀ k ∈ required s, k ∈ ms.map Prod.fst := by
    simp
  rw [accepts, Bool.and_eq_true, Bool.and_eq_true, hkeys, acceptsMembers_iff, and_assoc]

/-- an object fits when it is one of the right members, each of which is declared and fits in its place -/
theorem fits_obj_iff :
    Fits s (.obj ms) ↔ allows s "object" = true ∧ (∀ k ∈ required s, k ∈ ms.map Prod.fst) ∧
      ∀ m ∈ ms, ∃ t, member? m.1 s = some t ∧ Fits t m.2 := by
  constructor
  · rintro ⟨haccepted, hpruned⟩
    obtain ⟨htype, hrequired, haccepted⟩ := accepts_obj_iff.1 haccepted
    rw [prune] at hpruned
    refine ⟨htype, hrequired, fun m hm => ?_⟩
    obtain ⟨t, ht, hprune⟩ := pruneMembers_eq_self_iff.1 (Json.obj.inj hpruned) m hm
    exact ⟨t, ht, haccepted m hm t ht, hprune⟩
  · rintro ⟨htype, hrequired, hmembers⟩
    constructor
    · refine accepts_obj_iff.2 ⟨htype, hrequired, fun m hm t ht => ?_⟩
      obtain ⟨t', ht', hfits⟩ := hmembers m hm
      obtain rfl := Option.some.inj (ht'.symm.trans ht)
      exact hfits.accepted
    · rw [prune, pruneMembers_eq_self_iff.2 fun m hm => ?_]
      obtain ⟨t, ht, hfits⟩ := hmembers m hm
      exact ⟨t, ht, hfits.pruned⟩

/-- whatever stands in a value that fits is declared at its path, and fits there -/
theorem Fits.at? (h : Fits s v) {p : List String} {u : Json} (hu : v.at? p = some u) :
    ∃ t, OpenApi.at? p s = some t ∧ Fits t u := by
  induction p generalizing s v with
  | nil =>
    obtain rfl : v = u := Option.some.inj hu
    exact ⟨s, rfl, h⟩
  | cons k p ih =>
    obtain ⟨e, he, hrest⟩ := Json.exists_get?_of_at?_cons hu
    cases v with
    | obj ms =>
      obtain ⟨t, ht, hchild⟩ := (fits_obj_iff.1 h).2.2 (k, e) (Entries.mem_of_find? he)
      obtain ⟨t', ht', hfits⟩ := ih hchild hrest
      refine ⟨t', ?_, hfits⟩
      rw [OpenApi.at?, ht]
      exact ht'
    | _ => cases he

/-! ## Keywords that do not constrain -/

/-- the keywords that validation and pruning look at, apart from null -/
def keywords : List String :=
  ["type", "format", "x-kubernetes-int-or-string", "required", "properties", "additionalProperties", "items"]

/-- one schema says of values what another one says, but may allow null as well -/
structure Relaxes (t s : Json) : Prop where
  same : ∀ k ∈ keywords, t.get? k = s.get? k
  nullable : isOn "nullable" s = true → isOn "nullable" t = true

theorem Relaxes.trans {r : Json} (h : Relaxes t s) (h' : Relaxes s r) : Relaxes t r :=
  ⟨fun k hk => (h.same k hk).trans (h'.same k hk), fun hr => h.nullable (h'.nullable hr)⟩

namespace Relaxes

variable (h : Relaxes t s)
include h

theorem allows_eq (type : String) : allows t type = allows s type := by
  unfold allows isOn
  rw [h.same "x-kubernetes-int-or-string" (by decide), h.same "type" (by decide)]

theorem inRange_eq (n : Int) : inRange t n = inRange s n := by
  unfold inRange
  rw [h.same "format" (by decide)]

theorem required_eq : required t = required s := by
  unfold required
  rw [h.same "required" (by decide)]

theorem member?_eq (k : String) : member? k t = member? k s := by
  unfold member?
  rw [h.same "properties" (by decide), h.same "additionalProperties" (by decide)]

theorem item_eq : item t = item s := by
  unfold item
  rw [h.same "items" (by decide)]

end Relaxes

theorem Fits.relax (h : Relaxes t s) (hv : Fits s v) : Fits t v := by
  cases v with
  | obj ms =>
    rw [fits_obj_iff] at hv ⊢
    simpa only [h.allows_eq, h.required_eq, h.member?_eq] using hv
  | arr vs =>
    obtain ⟨haccepted, hpruned⟩ := hv
    constructor
    · simpa only [accepts, h.allows_eq, h.item_eq] using haccepted
    · simpa only [prune, h.item_eq] using hpruned
  | null => exact ⟨h.nullable hv.accepted, rfl⟩
  | int n =>
    refine ⟨?_, rfl⟩
    have haccepted := hv.accepted
    rw [accepts] at haccepted ⊢
    rw [h.allows_eq, h.inRange_eq, haccepted]
  | bool _ | float _ | str _ => exact ⟨(h.allows_eq _).trans hv.accepted, rfl⟩

/-! ## Schemas -/

/-- the form of a structure before its required members are added -/
theorem json_record (properties : List (String × Schema)) (required : List String) :
    (Schema.record properties required).json =
      let j := (Json.obj [("type", .str "object")]).set "properties" (.object (Schema.jsonProperties properties))
      if required.isEmpty then j else j.set "required" (.strings required) := rfl

theorem json_table (schema : Schema) :
    (Schema.table schema).json = (Json.obj [("type", .str "object")]).set "additionalProperties" schema.json := rfl

theorem exists_json_eq_obj : ∀ (schema : Schema), ∃ ms, schema.json = .obj ms
  | .any | .text | .flag | .int32 | .quantity | .table _ => ⟨_, rfl⟩
  | .record properties required => by
    rw [json_record]
    cases required <;> exact ⟨_, rfl⟩
  | .nullable schema | .described _ schema | .defaulted _ schema => by
    obtain ⟨ms, hms⟩ := exists_json_eq_obj schema
    rw [Schema.json, hms]
    exact ⟨_, rfl⟩

theorem key_mem_of_mem_set {names : List String} {j x : Json} {k : String} (hk : k ∈ names)
    (h : ∀ m ∈ j.members, m.1 ∈ names) : ∀ m ∈ (j.set k x).members, m.1 ∈ names := by
  intro m hm
  cases j with
  | obj ms =>
    rcases Entries.mem_insert hm with rfl | hm
    · exact hk
    · exact h m hm
  | null =>
    obtain rfl := List.mem_singleton.1 hm
    exact hk
  | _ => exact absurd hm List.not_mem_nil

/-- the keywords of a schema beside those that constrain values -/
def otherKeywords : List String := ["nullable", "description", "default"]

theorem key_mem_of_mem_type (type : String) :
    ∀ m ∈ (Json.obj [("type", .str type)]).members, m.1 ∈ otherKeywords ++ keywords := by
  intro m hm
  obtain rfl := List.mem_singleton.1 hm
  show "type" ∈ otherKeywords ++ keywords
  decide

/-- no schema is published with a keyword that constrains values and is not looked at -/
theorem key_mem_of_mem_json : ∀ (schema : Schema), ∀ m ∈ schema.json.members, m.1 ∈ otherKeywords ++ keywords
  | .any => fun _ hm => absurd hm List.not_mem_nil
  | .text => key_mem_of_mem_type "string"
  | .flag => key_mem_of_mem_type "boolean"
  | .int32 => key_mem_of_mem_set (by decide) (key_mem_of_mem_type "integer")
  | .quantity => by decide
  | .table _ => key_mem_of_mem_set (by decide) (key_mem_of_mem_type "object")
  | .record _ names => by
    rw [json_record]
    simp only
    split
    · exact key_mem_of_mem_set (by decide) (key_mem_of_mem_type "object")
    · exact key_mem_of_mem_set (by decide) (key_mem_of_mem_set (by decide) (key_mem_of_mem_type "object"))
  | .nullable schema | .described _ schema | .defaulted _ schema =>
    key_mem_of_mem_set (by decide) (key_mem_of_mem_json schema)

/-- setting a keyword that only informs relaxes a schema, and so does allowing null -/
theorem relaxes_set (schema : Schema) {k : String} {x : Json} (hk : k ∉ keywords)
    (hnull : k = "nullable" → x = .bool true) : Relaxes (schema.json.set k x) schema.json := by
  obtain ⟨ms, hms⟩ := exists_json_eq_obj schema
  rw [hms]
  constructor
  · intro k' hk'
    have hne : k' ≠ k := fun h => hk (h ▸ hk')
    rw [Json.get?_set_obj, if_neg hne]
  · intro hs
    unfold isOn
    rw [Json.get?_set_obj]
    by_cases hkey : "nullable" = k
    · rw [if_pos hkey, hnull hkey.symm]
    · rw [if_neg hkey]
      exact hs

theorem relaxes_described (note : String) (schema : Schema) :
    Relaxes (Schema.described note schema).json schema.json := by
  rw [Schema.json]
  exact relaxes_set schema (by decide) fun hk => absurd hk (by decide)

theorem relaxes_defaulted (x : Json) (schema : Schema) :
    Relaxes (Schema.defaulted x schema).json schema.json := by
  rw [Schema.json]
  exact relaxes_set schema (by decide) fun hk => absurd hk (by decide)

theorem relaxes_nullable (schema : Schema) : Relaxes (Schema.nullable schema).json schema.json := by
  rw [Schema.json]
  exact relaxes_set schema (by decide) fun _ => rfl

variable {schema : Schema}

theorem fits_null (schema : Schema) : Fits (Schema.nullable schema).json .null := by
  obtain ⟨ms, hms⟩ := exists_json_eq_obj schema
  refine ⟨?_, rfl⟩
  rw [Schema.json, hms, accepts, isOn, Json.get?_set_obj, if_pos rfl]

theorem fits_table (h : ∀ m ∈ ms, Fits schema.json m.2) : Fits (Schema.table schema).json (.obj ms) := by
  rw [json_table, fits_obj_iff]
  refine ⟨rfl, ?_, ?_⟩
  · intro k hk
    have hnone : OpenApi.required ((Json.obj [("type", .str "object")]).set "additionalProperties" schema.json) = [] := rfl
    rw [hnone] at hk
    cases hk
  · intro m hm
    exact ⟨schema.json, rfl, h m hm⟩

theorem fits_text_iff : Fits Schema.text.json v ↔ ∃ t, v = .str t := by
  constructor
  · intro h
    cases v with
    | str t => exact ⟨t, rfl⟩
    | _ => exact absurd h.accepted Bool.false_ne_true
  · rintro ⟨t, rfl⟩
    exact ⟨rfl, rfl⟩

theorem fits_flag_iff : Fits Schema.flag.json v ↔ ∃ b, v = .bool b := by
  constructor
  · intro h
    cases v with
    | bool b => exact ⟨b, rfl⟩
    | _ => exact absurd h.accepted Bool.false_ne_true
  · rintro ⟨b, rfl⟩
    exact ⟨rfl, rfl⟩

/-- the format holds integers to the range of the type that they are read into -/
theorem fits_int32_iff : Fits Schema.int32.json v ↔ ∃ n : Int32, v = .int n.toInt := by
  have hint : ∀ n, accepts Schema.int32.json (.int n) = decide (-2147483648 ≤ n ∧ n ≤ 2147483647) := fun _ => rfl
  constructor
  · intro h
    cases v with
    | int n =>
      obtain ⟨hlow, hhigh⟩ := of_decide_eq_true ((hint n).symm.trans h.accepted)
      exact ⟨.ofInt n, by rw [Int32.toInt_ofInt_of_le (by omega) (by omega)]⟩
    | _ => exact absurd h.accepted Bool.false_ne_true
  · rintro ⟨n, rfl⟩
    have hlow := n.le_toInt
    have hhigh := n.toInt_lt
    refine ⟨?_, rfl⟩
    rw [hint, decide_eq_true_iff]
    omega

theorem fits_quantity_iff : Fits Schema.quantity.json v ↔ (∃ t, v = .str t) ∨ ∃ n, v = .int n := by
  constructor
  · intro h
    cases v with
    | str t => exact Or.inl ⟨t, rfl⟩
    | int n => exact Or.inr ⟨n, rfl⟩
    | _ => exact absurd h.accepted Bool.false_ne_true
  · rintro (⟨t, rfl⟩ | ⟨n, rfl⟩)
    · exact ⟨rfl, rfl⟩
    · exact ⟨rfl, rfl⟩

section Records

variable (properties : List (String × Schema)) (names : List String)

theorem get?_record {k : String} (hk : k ≠ "required") :
    (Schema.record properties names).json.get? k =
      ((Json.obj [("type", .str "object")]).set "properties" (.object (Schema.jsonProperties properties))).get? k := by
  rw [json_record]
  cases names with
  | nil => rfl
  | cons name names => exact (Json.get?_set_obj _ _ _ _).trans (if_neg hk)

theorem allows_record : allows (Schema.record properties names).json "object" = true := by
  unfold allows isOn
  rw [get?_record properties names (by decide), get?_record properties names (by decide)]
  rfl

theorem required_record : required (Schema.record properties names).json = names := by
  cases names with
  | nil => rfl
  | cons name names =>
    have hget : (Schema.record properties (name :: names)).json.get? "required" = some (.strings (name :: names)) :=
      (Json.get?_set_obj _ _ _ _).trans (if_pos rfl)
    unfold required
    rw [hget]
    show ((name :: names).map Json.str).filterMap Json.asString? = name :: names
    rw [List.filterMap_map]
    exact List.filterMap_some

/-- the properties of a structure are declared, and nothing else is -/
theorem member?_record (k : String) :
    member? k (Schema.record properties names).json = (Entries.under k properties).getLast?.map Schema.json := by
  have hunder : Entries.under k (Schema.jsonProperties properties) = (Entries.under k properties).map Schema.json := by
    induction properties with
    | nil => rfl
    | cons e properties ih =>
      obtain ⟨name, schema⟩ := e
      rw [Schema.jsonProperties, Entries.under_cons, Entries.under_cons, ih]
      split <;> rfl
  unfold member?
  rw [get?_record properties names (by decide)]
  show Entries.find? k (Entries.ofList (Schema.jsonProperties properties)) = _
  rw [Entries.find?_ofList, hunder, List.getLast?_map]

variable {properties names}

theorem member?_record_of_mem (hnames : (properties.map Prod.fst).Nodup) {k : String} {schema : Schema}
    (h : (k, schema) ∈ properties) : member? k (Schema.record properties names).json = some schema.json := by
  rw [member?_record, Entries.under_of_mem hnames h]
  rfl

theorem member?_record_eq_none {k : String} (h : k ∉ properties.map Prod.fst) :
    member? k (Schema.record properties names).json = none := by
  rw [member?_record, Entries.under_eq_nil h]
  rfl

theorem fits_record (hnames : (properties.map Prod.fst).Nodup) (hrequired : ∀ k ∈ names, k ∈ ms.map Prod.fst)
    (h : ∀ m ∈ ms, ∃ schema, (m.1, schema) ∈ properties ∧ Fits schema.json m.2) :
    Fits (Schema.record properties names).json (.obj ms) := by
  rw [fits_obj_iff, required_record]
  refine ⟨allows_record properties names, hrequired, fun m hm => ?_⟩
  obtain ⟨schema, hmem, hfits⟩ := h m hm
  exact ⟨schema.json, member?_record_of_mem hnames hmem, hfits⟩

end Records

end OpenApi

end MigrationOperator
