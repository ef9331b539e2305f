/-
How alike two words are, for suggestions.

The measure is Jaro's: two characters match when they are equal and not too far apart, and matches in another order count
half. It is taken in floating point numbers of 64 bits, every step rounded, so a word that is seven tenths alike in exact
arithmetic may come out just above that.
-/
import MigrationOperator.Json.Binary64

namespace MigrationOperator.Similarity

/-- a list without its first element at or after `low` and before `high` that equals `c`; positions count from `i` -/
def takeMatch (c : Char) (low high : Nat) : (i : Nat) → List (Char × Bool) → Option (List (Char × Bool))
  | _, [] => none
  | i, (d, used) :: ds =>
    if i < high ∧ low ≤ i ∧ d = c ∧ !used then some ((d, true) :: ds)
    else (takeMatch c low high (i + 1) ds).map ((d, used) :: ·)

/-- the matched characters of the first word in order, and the second word with its matches marked -/
def matchAll (range : Nat) : (i : Nat) → List Char → List (Char × Bool) → List Char × List (Char × Bool)
  | _, [], marked => ([], marked)
  | i, c :: cs, marked =>
    match takeMatch c (i - range) (i + range + 1) 0 marked with
    | some marked =>
      let (found, marked) := matchAll range (i + 1) cs marked
      (c :: found, marked)
    | none => matchAll range (i + 1) cs marked

/-- the shares of the first word, the second word and the order that match, added up and divided by three -/
def mean (a b order : Nat × Nat) : Option Binary64 := do
  let words ← (← Binary64.round a.1 a.2).add (← Binary64.round b.1 b.2)
  let sum ← words.add (← Binary64.round order.1 order.2)
  sum.div (← Binary64.ofNat 3)

/-- the similarity of two words, from nothing in common to one -/
def jaro (a b : List Char) : Binary64 :=
  let range := max a.length b.length / 2 - 1
  let (found, marked) := matchAll range 0 a (b.map (·, false))
  let others := (marked.filter (·.2)).map (·.1)
  let m := found.length
  let moved := ((found.zip others).filter fun p => p.1 ≠ p.2).length / 2
  if m = 0 then .zero else (mean (m, a.length) (m, b.length) (m - moved, m)).getD .zero

/-- the number nearest to seven tenths -/
def threshold : Binary64 := (Binary64.round 7 10).getD .zero

/-- put a rated word behind those that are rated no higher -/
def insertRated (x : Binary64 × String) : List (Binary64 × String) → List (Binary64 × String)
  | [] => [x]
  | y :: ys => if x.1.less y.1 then x :: y :: ys else y :: insertRated x ys

/-- the words that are more than seven tenths like a given one, the most alike last -/
def candidates (word : String) (words : List String) : List String :=
  let rated := words.map fun w => (jaro word.toList w.toList, w)
  ((rated.filter (threshold.less ·.1)).foldl (fun acc x => insertRated x acc) []).map (·.2)

/-- the word that is most like a given one -/
def best? (word : String) (words : List String) : Option String := (candidates word words).getLast?

end MigrationOperator.Similarity
