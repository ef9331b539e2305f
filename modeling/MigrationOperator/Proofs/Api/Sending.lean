/-
Requests with proper names are sent.

The names of objects and namespaces are short and consist of lower-case letters, digits, hyphens and dots (`IsName`). A
request with such names has no fault (`Request.fault?_of_names`), and it is understood as it was meant
(`Request.hasPlainNames_of_names`).
-/
import MigrationOperator.Api.Route

namespace MigrationOperator

/-! ## Names -/

def isNameChar (c : Char) : Bool := c.isLower || c.isDigit || c = '-' || c = '.'

/-- a name that an object or a namespace may have -/
structure IsName (s : String) : Prop where
  ne_empty : s ≠ ""
  length_le : s.length ≤ 253
  chars : s.toList.all isNameChar

/-- the numbers of the characters that names consist of -/
theorem toNat_of_isNameChar {c : Char} (h : isNameChar c) :
    (97 ≤ c.toNat ∧ c.toNat ≤ 122) ∨ (48 ≤ c.toNat ∧ c.toNat ≤ 57) ∨ c.toNat = 45 ∨ c.toNat = 46 := by
  simp only [isNameChar, Bool.or_eq_true, decide_eq_true_eq] at h
  rcases h with ((hlower | hdigit) | rfl) | rfl
  · obtain ⟨h1, h2⟩ := Bool.and_eq_true_iff.1 hlower
    exact Or.inl ⟨of_decide_eq_true h1, of_decide_eq_true h2⟩
  · obtain ⟨h1, h2⟩ := Bool.and_eq_true_iff.1 hdigit
    exact Or.inr (Or.inl ⟨of_decide_eq_true h1, of_decide_eq_true h2⟩)
  · exact Or.inr (Or.inr (Or.inl rfl))
  · exact Or.inr (Or.inr (Or.inr rfl))

theorem ne_of_isNameChar {c d : Char} (h : isNameChar c) (hd : isNameChar d = false) : c ≠ d := by
  rintro rfl
  rw [hd] at h
  exact absurd h nofun

namespace Target

theorem allowsInPath_of_isNameChar {c : Char} (h : isNameChar c) : allowsInPath c := by
  have hgraphic : ' ' < c := by
    have hc := toNat_of_isNameChar h
    show (32 : Nat) < c.toNat
    omega
  have hne : ∀ d, isNameChar d = false → c ≠ d := fun d hd => ne_of_isNameChar h hd
  simp [allowsInPath, isGraphic, hgraphic, hne '\x7f' rfl, hne '<' rfl, hne '>' rfl, hne '`' rfl]

end Target

theorem IsName.isPlain {s : String} (h : IsName s) : Request.isPlain s := by
  refine List.all_eq_true.2 fun c hc => ?_
  have hname := List.all_eq_true.1 h.chars c hc
  have hne : ∀ d, isNameChar d = false → c ≠ d := fun d hd => ne_of_isNameChar hname hd
  simp [hne '/' rfl, hne '?' rfl, hne '#' rfl]

/-! ## Requests -/

namespace Request

variable {r : Request}

/-- the namespace and the name, if there is one, are proper -/
def HasNames (r : Request) : Prop := IsName r.namespaceName ∧ ∀ name, r.call.name? = some name → IsName name

theorem hasPlainNames_of_names (h : r.HasNames) : r.HasPlainNames :=
  ⟨h.1.isPlain, fun name hname => (h.2 name hname).isPlain⟩

/-- what holds of names, versions and the fixed words of paths holds of every step -/
theorem steps_induction {p : String → Prop} (h : r.HasNames) (hname : ∀ s, IsName s → p s)
    (hversion : ∀ v : SchemaVersion, p v.name) (hfixed : p "api" ∧ p "apis" ∧ p "v1" ∧ p "namespaces" ∧ p "secrets" ∧
      p "status" ∧ p SchemaVersion.group ∧ p SchemaVersion.plural) {s : String} (hs : s ∈ r.steps) : p s := by
  obtain ⟨ns, call⟩ := r
  obtain ⟨hns, hn⟩ := h
  have hns := hname ns hns
  have hn : ∀ name, call.name? = some name → p name := fun name he => hname name (hn name he)
  cases call <;> simp [steps, collection, Call.name?] at hs hn <;> grind

/-- every character of the target may stand in one -/
theorem isValid_target (h : r.HasNames) : r.target.isValid := by
  have hstep : ∀ s ∈ r.steps, s.toList.all Target.allowsInPath := by
    intro s hs
    refine steps_induction (p := fun t => t.toList.all Target.allowsInPath) h (fun t ht => ?_) (fun v => ?_)
      (by decide) hs
    · exact List.all_eq_true.2 fun c hc => Target.allowsInPath_of_isNameChar (List.all_eq_true.1 ht.chars c hc)
    · cases v <;> decide
  have hpath : (Path.ofSteps r.steps).all Target.allowsInPath := by
    refine List.all_eq_true.2 fun c hc => ?_
    obtain ⟨s, hs, hc⟩ := List.mem_flatMap.1 hc
    rcases List.mem_cons.1 hc with rfl | hc
    · decide
    · exact List.all_eq_true.1 (hstep s hs) c hc
  rw [target_of_plain (hasPlainNames_of_names h), Target.isValid, hpath]
  split <;> rfl

/-! ### Length -/

theorem utf8ByteSize_ofList_le (cs : List Char) : (String.ofList cs).utf8ByteSize ≤ 4 * cs.length := by
  induction cs with
  | nil => simp
  | cons c cs ih =>
    have hc := c.utf8Size_le_four
    rw [String.ofList_cons, String.utf8ByteSize_append, String.utf8ByteSize_singleton, List.length_cons]
    omega

theorem length_ofSteps_le {steps : List String} {n : Nat} (h : ∀ s ∈ steps, s.length ≤ n) :
    (Path.ofSteps steps).length ≤ (n + 1) * steps.length := by
  induction steps with
  | nil => simp [Path.ofSteps]
  | cons s steps ih =>
    have hs := h s List.mem_cons_self
    have hrest := ih fun t ht => h t (List.mem_cons_of_mem _ ht)
    have hcons : Path.ofSteps (s :: steps) = '/' :: (s.toList ++ Path.ofSteps steps) := by simp [Path.ofSteps]
    rw [hcons, List.length_cons, List.length_append, String.length_toList, List.length_cons, Nat.mul_add]
    omega

theorem size_target_le (h : r.HasNames) : (String.ofList r.targetChars).utf8ByteSize ≤ Target.maxSize := by
  have hstep : ∀ s ∈ r.steps, s.length ≤ 253 := by
    intro s hs
    refine steps_induction (p := fun t => t.length ≤ 253) h (fun t ht => ht.length_le) (fun v => ?_) (by decide) hs
    cases v <;> decide
  have hcount : r.steps.length ≤ 8 := by
    obtain ⟨ns, call⟩ := r
    cases call <;> simp [steps, collection]
  have hpath := length_ofSteps_le hstep
  have hchars : r.targetChars.length ≤ (Path.ofSteps r.steps).length + 1 := by
    rw [targetChars, List.length_append]
    split <;> simp
  have hsize := utf8ByteSize_ofList_le r.targetChars
  have hmax : Target.maxSize = 65534 := rfl
  omega

/-- **A request with proper names is sent.** -/
theorem fault?_of_names (h : r.HasNames) : r.fault? = none := by
  have hname : r.call.name? ≠ some "" := fun he => (h.2 "" he).ne_empty rfl
  have hsize := size_target_le h
  rw [fault?, if_neg hname, if_neg (by omega), if_pos (isValid_target h)]

end Request

end MigrationOperator
