/-
The status keeps what is written in it.

A record that passes over unknown members writes back what it reads of an object, member by member: a table says of each
known member what becomes of it, and the others are dropped (`Codec.write_eq_of_read`). Of a status every known member is
written with the value it has, unless it is at the default of its field or null (`Status.table`).

`status_codec_verbatim` adds what this means for the texts that are left open: a status is told by its texts, whatever they
are, since no unknown phase or reason that is read has the text of another one (`Status.regular_of_read`).
-/
import MigrationOperator.Proofs.Ambiguity
import MigrationOperator.Proofs.Classification

namespace MigrationOperator

/-! ## Members that are written back -/

/-- the known members of an object, each with what is written back of it -/
abbrev Table := List (String × (Doc → Option Json))

namespace Table

/-- what is written back of the members of an object; those that are not known are dropped -/
def writeBack (table : Table) (ms : List (String × Doc)) : List (String × Json) :=
  ms.filterMap fun m => ((Entries.find? m.1 table).bind (· m.2)).map (m.1, ·)

variable {table : Table} {ms : List (String × Doc)}

theorem under_writeBack (table : Table) (ms : List (String × Doc)) (k : String) :
    Entries.under k (table.writeBack ms) = (Entries.under k ms).filterMap fun d => (Entries.find? k table).bind (· d) := by
  induction ms with
  | nil => rfl
  | cons m ms ih =>
    rw [writeBack, List.filterMap_cons, Entries.under_cons]
    by_cases hk : k = m.1
    · subst hk
      rw [if_pos rfl, List.filterMap_cons]
      cases (Entries.find? m.1 table).bind (· m.2) with
      | none => exact ih
      | some j => exact (Entries.under_cons ..).trans ((if_pos rfl).trans (congrArg (j :: ·) ih))
    · rw [if_neg hk]
      cases (Entries.find? m.1 table).bind (· m.2) with
      | none => exact ih
      | some j => exact (Entries.under_cons ..).trans ((if_neg hk).trans ih)

/-- of known members that stand once, each by itself -/
theorem find?_writeBack (hms : ∀ k ∈ table.map Prod.fst, (Entries.under k ms).length ≤ 1) (k : String) :
    Entries.find? k (Entries.ofList (table.writeBack ms)) =
      (Entries.find? k table).bind fun keep => (Entries.find? k ms).bind keep := by
  rw [Entries.find?_ofList, under_writeBack]
  cases hkeep : Entries.find? k table with
  | none => simp
  | some keep =>
    rw [Entries.find?_eq_head? k ms]
    match Entries.under k ms, hms k (Entries.mem_keys_of_find? hkeep) with
    | [], _ => rfl
    | [d], _ => cases hd : keep d <;> simp [hd]

end Table

/-! ## Records that write back what they read -/

/-- what the field reads from here it writes back as the table says -/
def Column.Rewrites {α : Type} (c : Column α) (keep : Doc → Option Json) (s : Option Doc) : Prop :=
  ∀ x, c.Reads s x → (if c.omitted x then none else some (c.codec.write x)) = s.bind keep

namespace Columns

variable {ρ σ : Type} {f : String → Option Doc} {table : Table}

/-- every field does, each by its entry -/
def Rewrites (f : String → Option Doc) : {ρ σ : Type} → Columns ρ σ → Table → Prop
  | _, _, .nil, [] => True
  | _, _, .cons c rest, (k, keep) :: table => c.name = k ∧ c.Rewrites keep (f c.name) ∧ rest.Rewrites f table
  | _, _, _, _ => False

theorem Rewrites.keys {columns : Columns ρ σ} (h : columns.Rewrites f table) : table.map Prod.fst = columns.names := by
  induction columns generalizing table with
  | nil =>
    cases table with
    | nil => rfl
    | cons => exact h.elim
  | cons c rest ih =>
    cases table with
    | nil => exact h.elim
    | cons entry table =>
      obtain ⟨hname, -, hrest⟩ := h
      rw [List.map_cons, names, ih hrest, hname]

theorem Rewrites.written? {columns : Columns ρ σ} {row : ρ} (h : columns.Rewrites f table) (hrow : columns.Reads f row)
    (k : String) : columns.written? row k = (Entries.find? k table).bind fun keep => (f k).bind keep := by
  induction columns generalizing table with
  | nil =>
    cases table with
    | nil => rfl
    | cons => exact h.elim
  | cons c rest ih =>
    obtain ⟨x, row⟩ := row
    cases table with
    | nil => exact h.elim
    | cons entry table =>
      obtain ⟨k', keep⟩ := entry
      obtain ⟨rfl, hc, hrest⟩ := h
      obtain ⟨hx, hrow⟩ := hrow
      rw [Columns.written?, Entries.find?]
      by_cases hk : k = c.name
      · subst hk
        rw [if_pos rfl, if_pos rfl]
        exact hc x hx
      · rw [if_neg hk, if_neg hk]
        exact ih hrest hrow

end Columns

/-- **A record writes back what it reads,** as its table says. -/
theorem Codec.write_eq_of_read {α ρ σ : Type} {style : Style} {columns : Columns ρ σ} {row : α → ρ} {ofRow : ρ → α}
    {note : Option String} {table : Table} {ms : List (String × Doc)} {ending : Ending} {x : α}
    (hrepeats : style.repeats = false) (hnames : columns.names.Nodup) (hrow : ∀ r, row (ofRow r) = r)
    (htable : columns.Rewrites (Entries.find? · ms) table)
    (h : (record style columns row ofRow note).read (.obj ms ending) = .ok x) :
    (record style columns row ofRow note).write x = .object (table.writeBack ms) := by
  obtain ⟨r, hreads, rfl, hsingle, -⟩ := exists_reads_of_read hrepeats hnames h
  show Json.object (columns.write (row (ofRow r))) = _
  rw [hrow]
  refine congrArg Json.obj (Entries.ext_of_ordered (Entries.ordered_ofList _) (Entries.ordered_ofList _) fun k => ?_)
  rw [Columns.find?_write hnames, htable.written? hreads, Table.find?_writeBack]
  rwa [htable.keys]

/-! ## Members at their defaults -/

namespace Doc

def isEmptyText : Doc → Bool
  | .str s => s.isEmpty
  | _ => false

def isZero : Doc → Bool
  | .int n => n == 0
  | _ => false

def isFalse : Doc → Bool
  | .bool b => !b
  | _ => false

def isNull : Doc → Bool
  | .null => true
  | _ => false

end Doc

/-- a member is written back with the value it has, unless it is blank -/
def keepUnless (blank : Doc → Bool) (d : Doc) : Option Json := if blank d then none else d.value.toOption

/-- a field that stands for the very value it is read from -/
theorem Column.rewrites_of_read {α : Type} {c : Column α} {blank : Doc → Bool}
    (habsent : ∀ x, c.absent = some x → c.omitted x = true)
    (hread : ∀ d x, c.codec.read d = .ok x → d.value = .ok (c.codec.write x) ∧ c.omitted x = blank d) (s : Option Doc) :
    c.Rewrites (keepUnless blank) s := by
  intro x hx
  cases s with
  | none => rw [habsent x hx, if_pos rfl, Option.bind_none]
  | some d =>
    obtain ⟨hvalue, hblank⟩ := hread d x hx
    rw [Option.bind_some, keepUnless, hvalue, hblank]
    rfl

namespace Column

theorem int32_rewrites (name : String) (note : Option String) (s : Option Doc) :
    (int32 name note).Rewrites (keepUnless Doc.isZero) s := by
  refine rewrites_of_read (fun x hx => by rw [← Option.some.inj hx]; rfl) (fun d x hx => ?_) s
  obtain rfl := Codec.eq_int_of_read_int32 hx
  refine ⟨rfl, ?_⟩
  show (x == 0) = (x.toInt == 0)
  rw [Bool.eq_iff_iff, beq_iff_eq, beq_iff_eq, ← Int32.toInt_inj]
  rfl

theorem flag_rewrites (name : String) (note : Option String) (s : Option Doc) :
    (flag name note).Rewrites (keepUnless Doc.isFalse) s := by
  refine rewrites_of_read (fun x hx => by rw [← Option.some.inj hx]; rfl) (fun d x hx => ?_) s
  cases d with
  | bool b =>
    obtain rfl : b = x := Except.ok.inj hx
    exact ⟨rfl, rfl⟩
  | _ => exact absurd hx nofun

/-- no text is left out, not even an empty one -/
theorem optional_text_rewrites (name : String) (note : Option String) (s : Option Doc) :
    (optional name .text note).Rewrites (keepUnless Doc.isNull) s := by
  refine rewrites_of_read (fun x hx => by rw [← Option.some.inj hx]; rfl) (fun d x hx => ?_) s
  cases d with
  | null =>
    obtain rfl : none = x := Except.ok.inj hx
    exact ⟨rfl, rfl⟩
  | str t =>
    obtain rfl : some t = x := Except.ok.inj hx
    exact ⟨rfl, rfl⟩
  | _ => exact absurd hx nofun

end Column

/-! ## Open fields -/

/-- a field of any text, each with a value that it stands for; the empty text is the default -/
structure Column.Open {α : Type} (c : Column α) (ofString : String → α) (asString : α → String) : Prop where
  absent : c.absent = some (ofString "")
  beyond : c.beyond = c.absent
  omitted : ∀ x, c.omitted x = true ↔ x = ofString ""
  read : ∀ d x, c.codec.read d = .ok x → ∃ t, d = .str t ∧ x = ofString t
  write : ∀ x, c.codec.write x = .str (asString x)
  asString_ofString : ∀ t, asString (ofString t) = t

namespace Column

theorem Open.of_imap {α : Type} {name : String} {ofString : String → α} {asString : α → String} {missing : α}
    {isMissing : α → Bool} (hmissing : ofString "" = missing) (hisMissing : ∀ x, isMissing x = true ↔ x = missing)
    (htext : ∀ t, asString (ofString t) = t) :
    ({ name, codec := Codec.text.imap ofString asString, absent := some missing, omitted := isMissing } : Column α).Open
      ofString asString where
  absent := congrArg some hmissing.symm
  beyond := rfl
  omitted x := by rw [hmissing]; exact hisMissing x
  read d x h := by
    cases d with
    | str t => exact ⟨t, rfl, (Except.ok.inj h).symm⟩
    | _ => exact absurd h nofun
  write _ := rfl
  asString_ofString := htext

theorem open_text (name : String) (note : Option String) : (text name note).Open id id where
  absent := rfl
  beyond := rfl
  omitted _ := String.isEmpty_iff
  read d x h := by
    cases d with
    | str t => exact ⟨t, rfl, (Except.ok.inj h).symm⟩
    | _ => exact absurd h nofun
  write _ := rfl
  asString_ofString _ := rfl

theorem open_phase : Column.Open
    { name := "phase", codec := Phase.codec, absent := some .missing, omitted := Phase.isMissing }
    Phase.ofString Phase.asString :=
  .of_imap rfl (fun _ => decide_eq_true_iff) Phase.asString_ofString

theorem open_reason : Column.Open
    { name := "reason", codec := Reason.codec, absent := some .missing, omitted := Reason.isMissing }
    Reason.ofString Reason.asString :=
  .of_imap rfl (fun _ => decide_eq_true_iff) Reason.asString_ofString

variable {α : Type} {c : Column α} {ofString : String → α} {asString : α → String}

/-- two texts never stand for one value -/
theorem Open.ofString_inj (h : c.Open ofString asString) {t t' : String} : ofString t = ofString t' ↔ t = t' :=
  ⟨fun ht => by rw [← h.asString_ofString t, ht, h.asString_ofString], congrArg ofString⟩

theorem Open.rewrites (h : c.Open ofString asString) (s : Option Doc) : c.Rewrites (keepUnless Doc.isEmptyText) s := by
  refine rewrites_of_read (fun x hx => ?_) (fun d x hx => ?_) s
  · exact (h.omitted x).2 (Option.some.inj (hx.symm.trans h.absent))
  · obtain ⟨t, rfl, rfl⟩ := h.read d x hx
    refine ⟨by rw [h.write, h.asString_ofString]; rfl, ?_⟩
    rw [Bool.eq_iff_iff, h.omitted, h.ofString_inj]
    exact String.isEmpty_iff.symm

/-- what is read is what the text stands for, which is empty where there is none -/
theorem Open.eq_of_reads (h : c.Open ofString asString) {s : Option Doc} {x : α} (hx : c.Reads s x) :
    x = ofString ((s.bind Doc.text?).getD "") := by
  cases s with
  | none => exact hx.eq_absent rfl h.absent
  | some d =>
    obtain ⟨t, rfl, rfl⟩ := h.read d x hx
    rfl

end Column

/-- the field is read from somewhere, or at the default that a short list leaves it at -/
def Column.Sourced {α : Type} (c : Column α) (x : α) : Prop := (∃ s, c.Reads s x) ∨ c.beyond = some x

def Columns.Sourced : {ρ σ : Type} → Columns ρ σ → ρ → Prop
  | _, _, .nil, _ => True
  | _, _, .cons c rest, (x, row) => c.Sourced x ∧ rest.Sourced row

namespace Columns

variable {ρ σ : Type}

theorem Reads.sourced {columns : Columns ρ σ} {f : String → Option Doc} {row : ρ} (h : columns.Reads f row) :
    columns.Sourced row := by
  induction columns with
  | nil => trivial
  | cons c rest ih => exact ⟨.inl ⟨_, h.1⟩, ih h.2⟩

theorem sourced_of_readItems {columns : Columns ρ σ} {wanted : String} {ending : Ending} {i : Nat} {ds left : List Doc}
    {row : ρ} (h : columns.readItems wanted ending i ds = .ok (row, left)) : columns.Sourced row := by
  induction columns generalizing i ds with
  | nil => trivial
  | cons c rest ih =>
    obtain ⟨x, row⟩ := row
    cases ds with
    | cons d ds =>
      obtain ⟨hx, hrest⟩ := readItems_cons_of_ok h
      exact ⟨.inl ⟨some d, hx⟩, ih hrest⟩
    | nil =>
      obtain ⟨hx, hrest⟩ := readItems_nil_of_ok h
      exact ⟨.inr hx, ih hrest⟩

end Columns

theorem Codec.sourced_of_read {α ρ σ : Type} {style : Style} {columns : Columns ρ σ} {row : α → ρ} {ofRow : ρ → α}
    {note : Option String} {d : Doc} {x : α} (hrepeats : style.repeats = false) (hnames : columns.names.Nodup)
    (h : (record style columns row ofRow note).read d = .ok x) : ∃ r, columns.Sourced r ∧ ofRow r = x := by
  by_cases hd : ∃ items ending, d = .arr items ending
  · obtain ⟨items, ending, rfl⟩ := hd
    obtain ⟨r, left, hitems, hx⟩ := exists_readItems_of_read h
    exact ⟨r, Columns.sourced_of_readItems hitems, hx⟩
  · obtain ⟨⟨r, hreads, hx⟩, -⟩ := of_read_record hrepeats hnames (fun items ending hd' => hd ⟨items, ending, hd'⟩) h
    exact ⟨r, hreads.sourced, hx⟩

/-- a value of an open field is the one that its text stands for -/
theorem Column.Open.ofString_asString {α : Type} {c : Column α} {ofString : String → α} {asString : α → String}
    (h : c.Open ofString asString) {x : α} (hx : c.Sourced x) : ofString (asString x) = x := by
  have htext : ∃ t, x = ofString t := by
    rcases hx with ⟨s, hs⟩ | hbeyond
    · exact ⟨_, h.eq_of_reads hs⟩
    · exact ⟨"", Option.some.inj (hbeyond.symm.trans (h.beyond.trans h.absent))⟩
  obtain ⟨t, rfl⟩ := htext
  rw [h.asString_ofString]

/-! ## The status -/

namespace BackupStatus

/-- what is written back of the bookkeeping of a backup -/
def table : Table := [("next", keepUnless Doc.isEmptyText), ("previous", keepUnless Doc.isEmptyText)]

theorem write_eq_of_read {ms : List (String × Doc)} {ending : Ending} {b : BackupStatus}
    (h : codec.read (.obj ms ending) = .ok b) : codec.write b = .object (table.writeBack ms) :=
  Codec.write_eq_of_read rfl (by decide) (fun _ => rfl)
    ⟨rfl, (Column.open_text ..).rewrites _, rfl, (Column.open_text ..).rewrites _, trivial⟩ h

/-- it is empty exactly when nothing is written of it -/
theorem isEmpty_iff_write {b : BackupStatus} : b.isEmpty = true ↔ codec.write b = .object [] := by
  refine ⟨fun h => by rw [eq_default h]; rfl, fun h => ?_⟩
  have hread : codec.read (codec.write b).doc = .ok b := lawful_codec b
  rw [h] at hread
  obtain rfl : default = b := Except.ok.inj hread
  rfl

/-- the bookkeeping is left out when all of it would be -/
def keep (d : Doc) : Option Json :=
  if (table.writeBack d.members).isEmpty then none else some (.object (table.writeBack d.members))

theorem rewrites_keep {s : Option Doc} (hs : ∀ d, s = some d → ∃ ms ending, d = .obj ms ending) :
    Column.Rewrites
      { name := "backup", codec := codec, absent := some default, omitted := isEmpty } keep s := by
  intro b hb
  cases s with
  | none =>
    obtain rfl := hb.eq_absent rfl rfl
    rfl
  | some d =>
    obtain ⟨ms, ending, rfl⟩ := hs d rfl
    have hwrite : codec.write b = .object (table.writeBack ms) := write_eq_of_read hb
    show (if b.isEmpty then none else some (codec.write b)) =
      if (table.writeBack ms).isEmpty then none else some (.object (table.writeBack ms))
    have hempty : b.isEmpty = (table.writeBack ms).isEmpty := by
      rw [Bool.eq_iff_iff, isEmpty_iff_write, hwrite, List.isEmpty_iff, ← Entries.ofList_eq_nil_iff]
      exact ⟨Json.obj.inj, congrArg Json.obj⟩
    rw [hempty, hwrite]

end BackupStatus

namespace Status

/-- what is written back of a status -/
def table : Table :=
  [("phase", keepUnless Doc.isEmptyText), ("upgradeAttempts", keepUnless Doc.isZero),
    ("lastUpgradeFailure", keepUnless Doc.isNull), ("forceUpgrade", keepUnless Doc.isFalse),
    ("reason", keepUnless Doc.isEmptyText), ("description", keepUnless Doc.isEmptyText),
    ("version", keepUnless Doc.isEmptyText), ("targetVersion", keepUnless Doc.isEmptyText),
    ("backup", BackupStatus.keep)]

variable {ms : List (String × Doc)} {ending : Ending} {x : Status}

theorem write_eq_of_read (h : codec.read (.obj ms ending) = .ok x)
    (hbackup : ∀ d, Entries.find? "backup" ms = some d → ∃ ms ending, d = .obj ms ending) :
    codec.write x = .object (table.writeBack ms) :=
  Codec.write_eq_of_read rfl (by decide) (fun _ => rfl)
    ⟨rfl, Column.open_phase.rewrites _, rfl, Column.int32_rewrites _ _ _, rfl, Column.optional_text_rewrites _ _ _, rfl,
      Column.flag_rewrites _ _ _, rfl, Column.open_reason.rewrites _, rfl, (Column.open_text ..).rewrites _, rfl,
      (Column.open_text ..).rewrites _, rfl, (Column.open_text ..).rewrites _, rfl,
      BackupStatus.rewrites_keep hbackup, trivial⟩ h

/-- a status that is read, be it from a list, has the phase and the reason that their texts stand for -/
theorem regular_of_read {d : Doc} (h : codec.read d = .ok x) : x.Regular := by
  obtain ⟨r, hr, rfl⟩ := Codec.sourced_of_read rfl (by decide) h
  obtain ⟨hphase, -, -, -, hreason, -⟩ := hr
  exact ⟨Column.open_phase.ofString_asString hphase, Column.open_reason.ofString_asString hreason⟩

/-- the text under the name of the phase, which is empty where there is none -/
def phaseText (ms : List (String × Doc)) : String := ((Entries.find? "phase" ms).bind Doc.text?).getD ""

theorem phase_of_read (h : codec.read (.obj ms ending) = .ok x) : x.phase = .ofString (phaseText ms) := by
  obtain ⟨r, ⟨hphase, -⟩, rfl, -⟩ := Codec.exists_reads_of_read rfl (by decide) h
  exact Column.open_phase.eq_of_reads hphase

end Status

/-- an unknown value with the text of another one, which is empty or a known name -/
def Disguised {α : Type} (asString : α → String) (other : String → α) (x : α) : Prop :=
  ∃ s, x = other s ∧ ∃ y, y ≠ x ∧ asString y = s

theorem not_disguised_iff {α : Type} [DecidableEq α] {asString : α → String} {other : String → α} {x : α} :
    ¬Disguised asString other x ↔ ∀ s, x = other s → ∀ y, asString y = s → y = other s := by
  constructor
  · rintro h s rfl y hy
    exact Decidable.byContradiction fun hne => h ⟨s, rfl, y, hne, hy⟩
  · rintro h ⟨s, rfl, y, hne, hy⟩
    exact hne (h s rfl y hy)

def Phase.Disguised (p : Phase) : Prop := MigrationOperator.Disguised asString other p

def Reason.Disguised (r : Reason) : Prop := MigrationOperator.Disguised asString other r

theorem Status.regular_iff {x : Status} : x.Regular ↔ ¬x.phase.Disguised ∧ ¬x.reason.Disguised := by
  rw [Phase.Disguised, Reason.Disguised, not_disguised_iff, not_disguised_iff, ← Phase.regular_iff, ← Reason.regular_iff]
  exact ⟨fun h => ⟨h.phase, h.reason⟩, fun h => ⟨h.1, h.2⟩⟩

/-- **The status keeps what is written in it.** Of an object that is read as a status, with an object for the backup if
there is one, the known members that are neither null nor at their defaults are written back as they stand, and nothing
else; and this is read as the same status. Two such statuses have one phase exactly when the objects have the same text
for it, so it is the one of an installation when that text is `Installed`. No status that is read has an unknown phase or
reason with the text of another one, and every status without such a one is read back from what is written of it. -/
theorem status_codec_verbatim :
    (∀ ms ending x, Status.codec.read (.obj ms ending) = .ok x →
      (∀ d, Entries.find? "backup" ms = some d → ∃ ms ending, d = .obj ms ending) →
      Status.codec.write x = .object (Status.table.writeBack ms) ∧
        Status.codec.decode (Status.codec.write x) = .ok x) ∧
    (∀ ms ending x ms' ending' x', Status.codec.read (.obj ms ending) = .ok x →
      Status.codec.read (.obj ms' ending') = .ok x' →
      (x.phase = x'.phase ↔ Status.phaseText ms = Status.phaseText ms')) ∧
    (∀ ms ending x, Status.codec.read (.obj ms ending) = .ok x →
      (x.phase = .installed ↔ Status.phaseText ms = "Installed")) ∧
    (∀ d x, Status.codec.read d = .ok x → ¬x.phase.Disguised ∧ ¬x.reason.Disguised) ∧
    ∀ x : Status, ¬x.phase.Disguised → ¬x.reason.Disguised → Status.codec.decode (Status.codec.write x) = .ok x := by
  have hinj : ∀ t t', Phase.ofString t = Phase.ofString t' ↔ t = t' := fun _ _ => Column.open_phase.ofString_inj
  refine ⟨fun ms ending x hx hbackup => ?_, fun ms ending x ms' ending' x' hx hx' => ?_, fun ms ending x hx => ?_,
    fun d x hx => ?_, fun x hphase hreason => ?_⟩
  · exact ⟨Status.write_eq_of_read hx hbackup, Status.codec_keeps (Status.regular_of_read hx)⟩
  · rw [Status.phase_of_read hx, Status.phase_of_read hx', hinj]
  · rw [Status.phase_of_read hx]
    exact hinj _ "Installed"
  · exact Status.regular_iff.1 (Status.regular_of_read hx)
  · exact Status.codec_keeps (Status.regular_iff.2 ⟨hphase, hreason⟩)

/-- a status of a newer operator: a phase and members that are not known here, one of them twice, a failure that is an
empty text, and a backup that was never run -/
def newerStatus : List (String × Doc) :=
  [("phase", .str "Reconfiguring"), ("conditions", .arr [] .closed), ("lastUpgradeFailure", .str ""),
    ("backup", .obj [("previous", .str ""), ("kept", .int 3), ("next", .str "2026-10-19T00:00:00Z")] .closed),
    ("upgradeAttempts", .int 0), ("conditions", .null)]

theorem status_codec_verbatim_newer : ∃ x, Status.codec.read (.obj newerStatus .closed) = .ok x ∧
    Status.codec.write x =
      .obj [("backup", .obj [("next", .str "2026-10-19T00:00:00Z")]), ("lastUpgradeFailure", .str ""),
        ("phase", .str "Reconfiguring")] ∧ x.phase ≠ .installed := by
  have hread : Status.codec.read (.obj newerStatus .closed) = .ok _ := rfl
  obtain ⟨hverbatim, -, hinstalled, -⟩ := status_codec_verbatim
  refine ⟨_, hread, (hverbatim _ _ _ hread fun d hd => ?_).1.trans rfl, fun h => ?_⟩
  · exact ⟨_, _, (Option.some.inj hd).symm⟩
  · exact absurd ((hinstalled _ _ _ hread).1 h) (by decide)

end MigrationOperator
