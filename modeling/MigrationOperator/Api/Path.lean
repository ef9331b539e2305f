/-
Paths as steps from the root, each behind a slash.

`Path.ofSteps` writes steps and `Path.steps?` reads them. What is written reads back when no step holds a slash
(`steps?_ofSteps`); a step that does hold one reads back as several.
-/

namespace MigrationOperator.Path

def ofSteps (steps : List String) : List Char := steps.flatMap fun s => '/' :: s.toList

/-- the texts before, between and after the slashes -/
def pieces : List Char → List (List Char)
  | [] => [[]]
  | c :: cs =>
    if c = '/' then [] :: pieces cs
    else
      match pieces cs with
      | [] => [[c]]
      | p :: ps => (c :: p) :: ps

/-- the steps of a path; there are none unless it begins with a slash -/
def steps? (path : List Char) : Option (List String) :=
  match pieces path with
  | [] :: ps => some (ps.map String.ofList)
  | _ => none

theorem pieces_of_not_mem {a : List Char} (h : '/' ∉ a) : pieces a = [a] := by
  induction a with
  | nil => rfl
  | cons c a ih =>
    have hc : c ≠ '/' := fun e => h (e ▸ List.mem_cons_self)
    simp [pieces, hc, ih fun m => h (List.mem_cons_of_mem _ m)]

theorem pieces_append_slash {a : List Char} (b : List Char) (h : '/' ∉ a) :
    pieces (a ++ '/' :: b) = a :: pieces b := by
  induction a with
  | nil => simp [pieces]
  | cons c a ih =>
    have hc : c ≠ '/' := fun e => h (e ▸ List.mem_cons_self)
    simp [pieces, hc, ih fun m => h (List.mem_cons_of_mem _ m)]

/-- a piece before steps without slashes stands alone -/
theorem pieces_append_ofSteps {steps : List String} (h : ∀ s ∈ steps, '/' ∉ s.toList) {a : List Char} (ha : '/' ∉ a) :
    pieces (a ++ ofSteps steps) = a :: steps.map String.toList := by
  induction steps generalizing a with
  | nil => simpa [ofSteps] using pieces_of_not_mem ha
  | cons s steps ih =>
    have hs : '/' ∉ s.toList := h s List.mem_cons_self
    have hrest := ih (fun t m => h t (List.mem_cons_of_mem _ m)) hs
    have hcons : ofSteps (s :: steps) = '/' :: (s.toList ++ ofSteps steps) := by simp [ofSteps]
    rw [hcons, pieces_append_slash _ ha, hrest, List.map_cons]

/-- steps without slashes read back -/
theorem steps?_ofSteps {steps : List String} (h : ∀ s ∈ steps, '/' ∉ s.toList) :
    steps? (ofSteps steps) = some steps := by
  have hp : pieces (ofSteps steps) = [] :: steps.map String.toList := by
    have := pieces_append_ofSteps h (a := []) (by simp)
    simpa using this
  simp [steps?, hp, List.map_map, Function.comp_def]

end MigrationOperator.Path
