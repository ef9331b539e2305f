/-
One set of names for the addons.

A flag is looked up by a name (`Addons.switch`), the schema announces names (`Addon.known`), and a document has members of
these names (`Addons.codec`). `Addons.names_agree` says that the three go together, whatever the addons hold:
- `Named`: a flag is found under exactly the names that are announced, these are exactly the members that are written, and
  the flag that is found is the one that stands there. Writing it is a merge patch of one path in the document, so it is
  read back, and what stands on the other paths stays.
- `Replayed`: along any sequence of writes, the flag found under a name is the one last written there, or else the one
  that stood there at the start. Names that are not announced make no difference, and nothing but the flags changes.

What one write does is `flag?_switch`, `off_switch` and `at?_write_switch`; the sequences follow by induction over the
writes. A migration switches addons on by such a sequence (`Migration.addons_eq_switchAll`).
-/
import MigrationOperator.Proofs.Codec.Fields
import MigrationOperator.Proofs.Json.MergePatch
import MigrationOperator.Proofs.MigrationRules

namespace MigrationOperator

/-! ## Records that begin with a flag -/

namespace Columns

variable {ρ σ : Type} {rest : Columns ρ σ} {name : String} {note : Option String}

theorem get?_write_flag (h : (cons (.flag name note) rest).names.Nodup) (b : Bool) (row : ρ) (k : String) :
    (Json.object ((cons (.flag name note) rest).write (b, row))).get? k =
      if k = name then if b then some (.bool true) else none else rest.written? row k := by
  refine (find?_write h (b, row) k).trans ?_
  rw [written?]
  cases b <;> rfl

/-- another value of the flag is a patch of what is written; false takes the member away -/
theorem write_flag (h : (cons (.flag name note) rest).names.Nodup) (b b' : Bool) (row : ρ) :
    Json.object ((cons (.flag name note) rest).write (b, row)) =
      Json.mergePatch (.obj [(name, if b then .bool true else .null)])
        (Json.object ((cons (.flag name note) rest).write (b', row))) := by
  refine Json.eq_mergePatch_single (Entries.ordered_ofList _) (Entries.ordered_ofList _) fun k => ?_
  refine (get?_write_flag h b row k).trans ?_
  by_cases hk : k = name
  · rw [if_pos hk, if_pos hk]
    cases b with
    | false => rfl
    | true => simp [Json.isNull, Json.mergePatch]
  · rw [if_neg hk, if_neg hk]
    exact ((get?_write_flag h b' row k).trans (if_neg hk)).symm

end Columns

namespace Canonical

/-! ## Names -/

namespace Addon

theorem name_mem_known (a : Addon) : a.name ∈ known := by
  cases a <;> decide

theorem exists_name_of_known {n : String} (h : n ∈ known) : ∃ a : Addon, a.name = n := by
  have hall : n ∈ all.map name := h
  obtain ⟨a, -, ha⟩ := List.mem_map.1 hall
  exact ⟨a, ha⟩

/-- a name is that of an addon, or it is not announced -/
theorem known_cases (n : String) : (∃ a : Addon, a.name = n) ∨ n ∉ known := by
  by_cases hn : n ∈ known
  · exact Or.inl (exists_name_of_known hn)
  · exact Or.inr hn

theorem ofName?_of_unknown {n : String} (h : n ∉ known) : ofName? n = none := by
  cases hn : ofName? n with
  | none => rfl
  | some a => exact absurd (name_of_ofName? hn ▸ name_mem_known a) h

end Addon

namespace Addons

variable {n : String} {x : Addons}

/-- the flag that is found under a name -/
def flag? (n : String) (x : Addons) : Option Bool := (Addon.ofName? n).map fun a => x.enabled a

theorem flag?_name (a : Addon) (x : Addons) : x.flag? a.name = some (x.enabled a) := by
  rw [flag?, Addon.ofName?_name]
  rfl

theorem flag?_of_unknown (h : n ∉ Addon.known) (x : Addons) : x.flag? n = none := by
  rw [flag?, Addon.ofName?_of_unknown h]
  rfl

theorem isSome_flag?_iff : (x.flag? n).isSome ↔ n ∈ Addon.known := by
  rcases Addon.known_cases n with ⟨a, rfl⟩ | hn
  · simp [flag?_name, Addon.name_mem_known]
  · simp [flag?_of_unknown hn, hn]

/-! ## One write -/

theorem switch_name (a : Addon) (b : Bool) (x : Addons) : x.switch a.name b = (some (x.enabled a), x.setEnabled a b) := by
  rw [switch, Addon.ofName?_name]

theorem switch_of_unknown (h : n ∉ Addon.known) (b : Bool) (x : Addons) : x.switch n b = (none, x) := by
  rw [switch, Addon.ofName?_of_unknown h]

theorem switch_fst (n : String) (b : Bool) (x : Addons) : (x.switch n b).1 = x.flag? n := by
  rcases Addon.known_cases n with ⟨a, rfl⟩ | hn
  · rw [switch_name, flag?_name]
  · rw [switch_of_unknown hn, flag?_of_unknown hn]

/-- **One write, seen by the names.** The flag of that name is the one written, and the other flags stay. -/
theorem flag?_switch (n m : String) (b : Bool) (x : Addons) :
    (x.switch n b).2.flag? m = (x.flag? m).map fun old => if m = n then b else old := by
  rcases Addon.known_cases m with ⟨a', rfl⟩ | hm
  · rcases Addon.known_cases n with ⟨a, rfl⟩ | hn
    · have hsame : a'.name = a.name ↔ a' = a := ⟨Addon.name_inj, congrArg _⟩
      simp [switch_name, flag?_name, hsame]
    · have hne : a'.name ≠ n := fun h => hn (h ▸ Addon.name_mem_known a')
      simp [switch_of_unknown hn, hne]
  · rw [flag?_of_unknown hm, flag?_of_unknown hm]
    rfl

theorem off_switch (n : String) (b : Bool) (x : Addons) : (x.switch n b).2.off = x.off := by
  rcases Addon.known_cases n with ⟨a, rfl⟩ | hn
  · rw [switch_name, off_setEnabled]
  · rw [switch_of_unknown hn]

/-! ## What is written -/

/-- what is written of one addon -/
def part (a : Addon) (x : Addons) : Json :=
  match a with
  | .jaeger => JaegerConfiguration.codec.write x.jaeger
  | .ops => AddonSpec.codec.write x.ops
  | .todo => AddonSpec.codec.write x.todo
  | .knative => AddonSpec.codec.write x.knative
  | .dv => DvConfiguration.codec.write x.dv
  | .camelk => AddonSpec.codec.write x.camelk
  | .publicApi => PublicApiConfiguration.codec.write x.publicApi

theorem get?_write_name (a : Addon) (x : Addons) : (codec.write x).get? a.name = some (x.part a) := by
  refine (Codec.find?_write_record (by decide) x a.name).trans ?_
  cases a <;> rfl

theorem get?_write_of_unknown (h : n ∉ Addon.known) (x : Addons) : (codec.write x).get? n = none := by
  refine (Codec.find?_write_record (by decide) x n).trans ?_
  have hname : ∀ a : Addon, n ≠ a.name := fun a hn => h (hn ▸ Addon.name_mem_known a)
  simp [Columns.written?, Column.nested, hname]

theorem isSome_get?_write_iff : ((codec.write x).get? n).isSome ↔ n ∈ Addon.known := by
  rcases Addon.known_cases n with ⟨a, rfl⟩ | hn
  · simp [get?_write_name, Addon.name_mem_known]
  · simp [get?_write_of_unknown hn, hn]

theorem part_setEnabled_of_ne {a a' : Addon} (h : a' ≠ a) (b : Bool) (x : Addons) :
    (x.setEnabled a b).part a' = x.part a' := by
  cases a <;> cases a' <;> first | rfl | exact absurd rfl h

theorem get?_enabled_part (a : Addon) (x : Addons) :
    (x.part a).get? "enabled" = if x.enabled a then some (.bool true) else none := by
  cases a <;> exact (Columns.get?_write_flag (by decide) _ _ _).trans (if_pos rfl)

/-- with its flag written, an addon is patched there -/
theorem part_setEnabled (a : Addon) (b : Bool) (x : Addons) :
    (x.setEnabled a b).part a = Json.mergePatch (.obj [("enabled", if b then .bool true else .null)]) (x.part a) := by
  cases a <;> exact Columns.write_flag (by decide) b _ _

/-- the path of a flag in a document -/
def flagPath (n : String) : List String := [n, "enabled"]

/-- the patch that writes a flag; false is left out -/
def flagPatch (n : String) (b : Bool) : Json := Json.patchAt (flagPath n) (if b then .bool true else .null)

/-- **One write, seen in the document.** It is patched on the path of the flag. -/
theorem write_setEnabled (a : Addon) (b : Bool) (x : Addons) :
    codec.write (x.setEnabled a b) = Json.mergePatch (flagPatch a.name b) (codec.write x) := by
  refine Json.eq_mergePatch_single (Entries.ordered_ofList _) (Entries.ordered_ofList _) fun k => ?_
  show (codec.write (x.setEnabled a b)).get? k =
    if k = a.name then some (Json.mergePatch _ (((codec.write x).get? a.name).getD .null)) else (codec.write x).get? k
  rcases Addon.known_cases k with ⟨a', rfl⟩ | hk
  · rw [get?_write_name, get?_write_name, get?_write_name]
    by_cases ha : a' = a
    · subst ha
      rw [if_pos rfl, part_setEnabled]
      rfl
    · rw [if_neg fun hname => ha (Addon.name_inj hname), part_setEnabled_of_ne ha]
  · have hne : k ≠ a.name := fun h => hk (h ▸ Addon.name_mem_known a)
    rw [if_neg hne, get?_write_of_unknown hk, get?_write_of_unknown hk]

/-- the flag that a document shows under a name: none without a member of that name, and false where nothing stands -/
def shownFlag? (n : String) (j : Json) : Option Bool :=
  (j.get? n).bind fun part =>
    match part.get? "enabled" with
    | none => some false
    | some (.bool b) => some b
    | some _ => none

/-- a document shows the flags that are found -/
theorem shownFlag?_write (n : String) (x : Addons) : shownFlag? n (codec.write x) = x.flag? n := by
  rcases Addon.known_cases n with ⟨a, rfl⟩ | hn
  · rw [shownFlag?, get?_write_name, flag?_name, Option.bind_some, get?_enabled_part]
    cases x.enabled a <;> rfl
  · rw [shownFlag?, get?_write_of_unknown hn, flag?_of_unknown hn]
    rfl

theorem at?_write_switch {p : List String} (hp : n ∈ Addon.known → Json.Apart (flagPath n) p) (b : Bool) (x : Addons) :
    (codec.write (x.switch n b).2).at? p = (codec.write x).at? p := by
  rcases Addon.known_cases n with ⟨a, rfl⟩ | hn
  · rw [switch_name, write_setEnabled, flagPatch, Json.at?_mergePatch_patchAt (hp (Addon.name_mem_known a))]
  · rw [switch_of_unknown hn]

/-! ## Writes one after another -/

/-- the flags found before each of a sequence of writes, and the addons after them -/
def switchAll : List (String × Bool) → Addons → List (Option Bool) × Addons
  | [], x => ([], x)
  | (n, b) :: steps, x =>
    let (found, x) := x.switch n b
    let (founds, x) := x.switchAll steps
    (found :: founds, x)

/-- the value last written under a name -/
def lastWritten? (n : String) (steps : List (String × Bool)) : Option Bool := (Entries.under n steps).getLast?

theorem switchAll_cons_snd (n : String) (b : Bool) (steps : List (String × Bool)) (x : Addons) :
    (x.switchAll ((n, b) :: steps)).2 = ((x.switch n b).2.switchAll steps).2 := rfl

/-- **Many writes, seen by the names.** A flag is as it was last written, or else as it was. -/
theorem flag?_switchAll (n : String) (steps : List (String × Bool)) (x : Addons) :
    (x.switchAll steps).2.flag? n = (x.flag? n).map fun first => (lastWritten? n steps).getD first := by
  induction steps generalizing x with
  | nil => simp [switchAll, lastWritten?]
  | cons s steps ih =>
    obtain ⟨m, b⟩ := s
    rw [switchAll_cons_snd, ih, flag?_switch, Option.map_map]
    congr 1
    funext first
    rw [Function.comp_apply, lastWritten?, lastWritten?, Entries.under_cons]
    by_cases hn : n = m
    · rw [if_pos hn, if_pos hn, List.getLast?_cons, Option.getD_some]
    · rw [if_neg hn, if_neg hn]

/-- what a write finds is what the writes before it left -/
theorem getElem?_switchAll_fst (steps : List (String × Bool)) (x : Addons) (i : Nat) :
    (x.switchAll steps).1[i]? = steps[i]?.map fun s => (x.switchAll (steps.take i)).2.flag? s.1 := by
  induction steps generalizing x i with
  | nil => simp [switchAll]
  | cons s steps ih =>
    obtain ⟨n, b⟩ := s
    cases i with
    | zero => exact congrArg some (switch_fst n b x)
    | succ i => exact ih (x.switch n b).2 i

theorem off_switchAll (steps : List (String × Bool)) (x : Addons) : (x.switchAll steps).2.off = x.off := by
  induction steps generalizing x with
  | nil => rfl
  | cons s steps ih => rw [switchAll_cons_snd, ih, off_switch]

theorem at?_write_switchAll {p : List String} (hp : ∀ n ∈ Addon.known, Json.Apart (flagPath n) p)
    (steps : List (String × Bool)) (x : Addons) :
    (codec.write (x.switchAll steps).2).at? p = (codec.write x).at? p := by
  induction steps generalizing x with
  | nil => rfl
  | cons s steps ih => rw [switchAll_cons_snd, ih, at?_write_switch (hp s.1)]

/-- writes under names that are not announced can be left out -/
theorem switchAll_filter_known (steps : List (String × Bool)) (x : Addons) :
    (x.switchAll (steps.filter (·.1 ∈ Addon.known))).2 = (x.switchAll steps).2 := by
  induction steps generalizing x with
  | nil => rfl
  | cons s steps ih =>
    obtain ⟨n, b⟩ := s
    rw [switchAll_cons_snd, List.filter_cons]
    split
    · rw [switchAll_cons_snd, ih]
    · rename_i hn
      rw [ih, switch_of_unknown (by simpa using hn)]

/-! ## The names agree -/

/-- what the look-up of a name, the announced names and the document have to do with each other, and what becomes of the
document when the flag of that name is written -/
structure Named (x : Addons) (n : String) (b : Bool) : Prop where
  found : (x.switch n b).1.isSome ↔ n ∈ Addon.known
  member : ((codec.write x).get? n).isSome ↔ n ∈ Addon.known
  shown : (x.switch n b).1 = shownFlag? n (codec.write x)
  reads : n ∈ Addon.known → shownFlag? n (codec.write (x.switch n b).2) = some b
  patched : n ∈ Addon.known → codec.write (x.switch n b).2 = Json.mergePatch (flagPatch n b) (codec.write x)
  others : ∀ p, Json.Apart (flagPath n) p → (codec.write (x.switch n b).2).at? p = (codec.write x).at? p
  unknown : n ∉ Addon.known → (x.switch n b).2 = x

/-- what is found along a sequence of writes, and what it leaves -/
structure Replayed (x : Addons) (steps : List (String × Bool)) : Prop where
  found : ∀ i, (x.switchAll steps).1[i]? = steps[i]?.map fun s =>
    (shownFlag? s.1 (codec.write x)).map fun first => (lastWritten? s.1 (steps.take i)).getD first
  flags : ∀ n, shownFlag? n (codec.write (x.switchAll steps).2) =
    (shownFlag? n (codec.write x)).map fun first => (lastWritten? n steps).getD first
  unknown : (x.switchAll (steps.filter (·.1 ∈ Addon.known))).2 = (x.switchAll steps).2
  off : (x.switchAll steps).2.off = x.off
  others : ∀ p, (∀ n ∈ Addon.known, Json.Apart (flagPath n) p) →
    (codec.write (x.switchAll steps).2).at? p = (codec.write x).at? p

/-- **The names agree.** Whatever the addons hold, the names under which flags are found are the announced ones and the
members of the document. Writing a flag changes the document on the path of that flag alone, where it is then read. Along
any sequence of writes each flag is the one last written under its name, or else the one at the start, and nothing else
changes. -/
theorem names_agree (x : Addons) : (∀ n b, Named x n b) ∧ ∀ steps, Replayed x steps := by
  refine ⟨fun n b => ?_, fun steps => ?_⟩
  · exact
      { found := by rw [switch_fst, isSome_flag?_iff]
        member := isSome_get?_write_iff
        shown := by rw [switch_fst, shownFlag?_write]
        reads := fun hn => by
          obtain ⟨a, rfl⟩ := Addon.exists_name_of_known hn
          rw [shownFlag?_write, flag?_switch, flag?_name, Option.map_some, if_pos rfl]
        patched := fun hn => by
          obtain ⟨a, rfl⟩ := Addon.exists_name_of_known hn
          rw [switch_name, write_setEnabled]
        others := fun p hp => at?_write_switch (fun _ => hp) b x
        unknown := fun hn => by rw [switch_of_unknown hn] }
  · exact
      { found := fun i => by simp only [getElem?_switchAll_fst, flag?_switchAll, shownFlag?_write]
        flags := fun n => by simp only [shownFlag?_write, flag?_switchAll]
        unknown := switchAll_filter_known steps x
        off := off_switchAll steps x
        others := fun p hp => at?_write_switchAll hp steps x }

/-- a flag that is written twice, with a name in between that nothing goes by -/
example : ({} : Addons).switchAll [("camelk", true), ("komodo", true), ("camelk", false)] =
    ([some false, none, some true], {}) := by
  decide

end Addons

end Canonical

/-! ## The addons of a migration -/

namespace Migration

theorem copyAddon_eq_switch (x : Canonical.Addons) (name : String) (parameters : Legacy.AddonParameters) :
    copyAddon x name parameters = if asksFor parameters then (x.switch name true).2 else x := by
  unfold copyAddon Canonical.Addons.switch
  cases Canonical.Addon.ofName? name with
  | none => simp
  | some a => rfl

/-- **A migration writes flags.** It switches on, one after another, the addons whose entries ask for it. -/
theorem addons_eq_switchAll (old : StringMap Legacy.AddonParameters) (x : Canonical.Addons) :
    addons old x = (x.switchAll ((old.entries.filter (asksFor ·.2)).map fun e => (e.1, true))).2 := by
  unfold addons
  induction old.entries generalizing x with
  | nil => rfl
  | cons e es ih =>
    rw [List.foldl_cons, ih, copyAddon_eq_switch, List.filter_cons]
    split
    · rw [List.map_cons, Canonical.Addons.switchAll_cons_snd]
    · rfl

end Migration

end MigrationOperator
