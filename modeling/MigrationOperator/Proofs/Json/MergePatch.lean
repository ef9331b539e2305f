/-
Merge patches, member by member.

`Json.find?_mergeMembers` says what stands under a key after a patch: what the patch does not name stays, what it sets to
null goes, and what it names otherwise is patched in turn. Hence a patch keeps values normal, and applying it a second
time changes nothing (`Json.mergePatch_idem`). A patch of one path leaves alone what stands on all paths apart from it
(`Json.at?_mergePatch_patchAt`).
-/
import MigrationOperator.Json.Normal

namespace MigrationOperator.Json

/-! ## Members -/

theorem normal_of_find? {ms : List (String × Json)} (h : ∀ m ∈ ms, m.2.Normal) {k : String} {v : Json}
    (hv : Entries.find? k ms = some v) : v.Normal :=
  h _ (Entries.mem_of_find? hv)

/-- the members of a normal value, if it has any, are in order and normal -/
theorem Normal.members {j : Json} (h : j.Normal) : Entries.Ordered j.members ∧ ∀ m ∈ j.members, m.2.Normal := by
  cases j with
  | obj ms => exact ⟨h.1, normalMembers_iff.1 h.2⟩
  | _ => exact ⟨List.Pairwise.nil, fun _ hm => absurd hm List.not_mem_nil⟩

/-- a member of a normal value is normal -/
theorem Normal.get? {j v : Json} (h : j.Normal) {k : String} (hv : j.get? k = some v) : v.Normal :=
  normal_of_find? h.members.2 hv

theorem normal_unset {j : Json} (k : String) (h : j.Normal) : (j.unset k).Normal := by
  cases j with
  | obj ms =>
    refine ⟨Entries.ordered_erase k h.1, normalMembers_iff.2 fun m hm => ?_⟩
    exact normalMembers_iff.1 h.2 m (List.mem_filter.1 hm).1
  | _ => exact h

theorem normal_ofOption {j : Option Json} (h : ∀ v, j = some v → v.Normal) : (ofOption j).Normal := by
  cases j with
  | none => exact trivial
  | some v => exact h v rfl

@[simp] theorem get?_set_obj (ms : List (String × Json)) (k k' : String) (v : Json) :
    ((obj ms).set k v).get? k' = if k' = k then some v else (obj ms).get? k' :=
  Entries.find?_insert k k' v ms

@[simp] theorem get?_unset_obj (ms : List (String × Json)) (k k' : String) :
    ((obj ms).unset k).get? k' = if k' = k then none else (obj ms).get? k' :=
  Entries.find?_erase k k' ms

/-! ## Patching -/

/-- what stands under a key after a patch -/
theorem find?_mergeMembers {ms : List (String × Json)} (hms : Entries.Ordered ms) (target : List (String × Json))
    (k : String) :
    Entries.find? k (mergeMembers ms target) =
      match Entries.find? k ms with
      | none => Entries.find? k target
      | some v => if v.isNull then none else some (mergePatch v ((Entries.find? k target).getD .null)) := by
  induction ms generalizing target with
  | nil => rfl
  | cons m ms ih =>
    obtain ⟨k', v⟩ := m
    obtain ⟨hk', hms⟩ := List.pairwise_cons.1 hms
    rw [mergeMembers, ih hms]
    by_cases hk : k = k'
    · subst hk
      rw [Entries.find?_of_forall_lt hk']
      cases hv : v.isNull <;> simp [Entries.find?, Entries.find?_erase, Entries.find?_insert, hv]
    · have hsame : Entries.find? k (if v.isNull then Entries.erase k' target
          else Entries.insert k' (mergePatch v ((Entries.find? k' target).getD .null)) target) =
          Entries.find? k target := by
        split
        · rw [Entries.find?_erase, if_neg hk]
        · rw [Entries.find?_insert, if_neg hk]
      rw [hsame, Entries.find?, if_neg hk]

theorem mergePatch_obj (ms : List (String × Json)) (target : Json) :
    mergePatch (.obj ms) target = .obj (mergeMembers ms target.members) := by
  rw [mergePatch]

theorem get?_mergePatch_obj {ms : List (String × Json)} (hms : Entries.Ordered ms) (target : Json) (k : String) :
    (mergePatch (.obj ms) target).get? k =
      match Entries.find? k ms with
      | none => target.get? k
      | some v => if v.isNull then none else some (mergePatch v ((target.get? k).getD .null)) := by
  rw [mergePatch_obj]
  exact find?_mergeMembers hms target.members k

/-- text that a patch sets stands afterwards -/
theorem get?_mergePatch_of_str {ms : List (String × Json)} (hms : Entries.Ordered ms) {k v : String}
    (h : Entries.find? k ms = some (.str v)) (target : Json) : (mergePatch (.obj ms) target).get? k = some (.str v) := by
  rw [get?_mergePatch_obj hms, h]
  rfl

mutual

theorem normal_mergePatch : ∀ {p t : Json}, p.Normal → t.Normal → (mergePatch p t).Normal
  | .obj ms, t, hp, ht => by
    have htarget := ht.members
    have h := normal_mergeMembers hp.2 htarget.1 htarget.2
    rw [mergePatch]
    exact ⟨h.1, normalMembers_iff.2 h.2⟩
  | .null, _, _, _ | .bool _, _, _, _ | .int _, _, _, _ | .float _, _, _, _ | .str _, _, _, _ => by
    rw [mergePatch]
    exact trivial
  | .arr xs, _, hp, _ => by
    rw [mergePatch]
    exact hp

theorem normal_mergeMembers : ∀ {ms target : List (String × Json)}, NormalMembers ms → Entries.Ordered target →
    (∀ m ∈ target, m.2.Normal) →
    Entries.Ordered (mergeMembers ms target) ∧ ∀ m ∈ mergeMembers ms target, m.2.Normal
  | [], target, _, ho, hn => by
    rw [mergeMembers]
    exact ⟨ho, hn⟩
  | (k, v) :: ms, target, hp, ho, hn => by
    have hfound : ((Entries.find? k target).getD .null).Normal := normal_ofOption fun w hw => normal_of_find? hn hw
    have hv := normal_mergePatch hp.1 hfound
    rw [mergeMembers]
    split
    · exact normal_mergeMembers hp.2 (Entries.ordered_erase k ho) fun m hm => hn m (List.mem_filter.1 hm).1
    · exact normal_mergeMembers hp.2 (Entries.ordered_insert k _ ho) (normal_of_mem_insert hv hn)

end

mutual

/-- a patch that was applied changes nothing when it is applied again -/
theorem mergePatch_idem : ∀ {p t : Json}, p.Normal → t.Normal → mergePatch p (mergePatch p t) = mergePatch p t
  | .obj ms, t, hp, ht => by
    have htarget := ht.members
    have hfirst := normal_mergeMembers hp.2 htarget.1 htarget.2
    have hsecond := normal_mergeMembers hp.2 hfirst.1 hfirst.2
    rw [mergePatch_obj ms t, mergePatch_obj]
    refine congrArg obj (Entries.ext_of_ordered hsecond.1 hfirst.1 fun k => ?_)
    show Entries.find? k (mergeMembers ms (mergeMembers ms t.members)) = _
    rw [find?_mergeMembers hp.1, find?_mergeMembers hp.1]
    cases hv : Entries.find? k ms with
    | none => rfl
    | some v =>
      have hidem : mergePatch v (mergePatch v ((Entries.find? k t.members).getD .null)) =
          mergePatch v ((Entries.find? k t.members).getD .null) :=
        mergePatch_idem_of_find? hp.2 hv (normal_ofOption fun w hw => normal_of_find? htarget.2 hw)
      cases hnull : v.isNull <;> simp [hnull, hidem]
  | .null, _, _, _ | .bool _, _, _, _ | .int _, _, _, _ | .float _, _, _, _ | .str _, _, _, _ | .arr _, _, _, _ => by
    simp only [mergePatch]

theorem mergePatch_idem_of_find? : ∀ {ms : List (String × Json)}, NormalMembers ms → ∀ {k : String} {v t : Json},
    Entries.find? k ms = some v → t.Normal → mergePatch v (mergePatch v t) = mergePatch v t
  | [], _, _, _, _, hv, _ => absurd hv nofun
  | (k', v') :: ms, hms, k, v, t, hv, ht => by
    rw [Entries.find?] at hv
    split at hv
    · obtain rfl := Option.some.inj hv
      exact mergePatch_idem hms.1 ht
    · exact mergePatch_idem_of_find? hms.2 hv ht

end

/-! ## Patches of one path -/

theorem get?_mergePatch_single (k k' : String) (v target : Json) :
    (mergePatch (.obj [(k, v)]) target).get? k' =
      if k' = k then if v.isNull then none else some (mergePatch v ((target.get? k).getD .null))
      else target.get? k' := by
  rw [get?_mergePatch_obj (List.pairwise_singleton _ _), Entries.find?]
  by_cases hk : k' = k
  · subst hk
    rw [if_pos rfl, if_pos rfl]
  · rw [if_neg hk, if_neg hk]
    rfl

/-- an object that has under the key what the patch makes of it, and the members of another one elsewhere, is that other one
patched -/
theorem eq_mergePatch_single {ms target : List (String × Json)} (hms : Entries.Ordered ms)
    (htarget : Entries.Ordered target) {k : String} {v : Json}
    (h : ∀ k', (obj ms).get? k' =
      if k' = k then if v.isNull then none else some (mergePatch v (((obj target).get? k).getD .null))
      else (obj target).get? k') :
    obj ms = mergePatch (.obj [(k, v)]) (.obj target) := by
  have hordered : Entries.Ordered (mergeMembers [(k, v)] target) := by
    rw [mergeMembers, mergeMembers]
    split
    · exact Entries.ordered_erase _ htarget
    · exact Entries.ordered_insert _ _ htarget
  have hpatched := fun k' => get?_mergePatch_single k k' v (.obj target)
  rw [mergePatch_obj] at hpatched ⊢
  exact congrArg obj (Entries.ext_of_ordered hms hordered fun k' => (h k').trans (hpatched k').symm)

/-- neither path leads through the end of the other -/
structure Apart (p q : List String) : Prop where
  not_prefix : ¬ p <+: q
  not_extends : ¬ q <+: p

/-- apart after the same first name -/
theorem Apart.tail {k : String} {p q : List String} (h : Apart (k :: p) (k :: q)) : Apart p q :=
  ⟨fun hp => h.not_prefix (List.cons_prefix_cons.2 ⟨rfl, hp⟩), fun hq => h.not_extends (List.cons_prefix_cons.2 ⟨rfl, hq⟩)⟩

/-- paths that are apart have names left -/
theorem Apart.exists_cons {p q : List String} (h : Apart p q) : ∃ i p' i' q', p = i :: p' ∧ q = i' :: q' := by
  cases p with
  | nil => exact absurd List.nil_prefix h.not_prefix
  | cons i p =>
    cases q with
    | nil => exact absurd List.nil_prefix h.not_extends
    | cons i' q => exact ⟨i, p, i', q, rfl, rfl⟩

/-- the patch that puts a value at the end of a path; null takes away what is there -/
def patchAt : List String → Json → Json
  | [], v => v
  | k :: ks, v => .obj [(k, patchAt ks v)]

/-- a patch of one path leaves alone what stands apart from it -/
theorem at?_mergePatch_patchAt {p q : List String} (h : Apart p q) (v j : Json) :
    (mergePatch (patchAt p v) j).at? q = j.at? q := by
  induction p generalizing q j with
  | nil => exact absurd List.nil_prefix h.not_prefix
  | cons k p ih =>
    obtain ⟨-, -, k', q, -, rfl⟩ := h.exists_cons
    rw [at?, at?, patchAt, get?_mergePatch_single]
    by_cases hk : k' = k
    · subst hk
      obtain ⟨i, p, i', q, rfl, rfl⟩ := h.tail.exists_cons
      -- the patch is not null here, as the path goes on
      rw [if_pos rfl]
      show (mergePatch (patchAt (i :: p) v) ((j.get? k').getD .null)).at? (i' :: q) = _
      rw [ih h.tail]
      cases j.get? k' <;> rfl
    · rw [if_neg hk]

end MigrationOperator.Json
