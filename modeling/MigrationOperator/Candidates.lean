/-
The objects of a namespace by schema.

`Candidates` groups classified objects in the order they were met. At most one object may exist over all versions;
`Candidates.checkSingleton` is that rule.
-/
import MigrationOperator.Classification

namespace MigrationOperator

structure Candidates where
  canonical : List CanonicalResource := []
  legacy : List LegacyResource := []

/-- how many objects there are of each version, when there are too many -/
structure TooManyInstances where
  legacy : Nat
  canonical : Nat
deriving DecidableEq

def TooManyInstances.message (e : TooManyInstances) : String :=
  "unsupported number of " ++ SchemaVersion.kind ++ " resources: " ++
    SchemaVersion.legacy.name ++ ": " ++ toString e.legacy ++ ", " ++
    SchemaVersion.canonical.name ++ ": " ++ toString e.canonical ++ " (at most one is allowed)"

namespace Candidates

def empty : Candidates := {}

/-- one more object, after those of its schema -/
def push (cs : Candidates) : Classified → Candidates
  | .canonical x => { cs with canonical := cs.canonical ++ [x] }
  | .legacy x => { cs with legacy := cs.legacy ++ [x] }

def ofList (xs : List Classified) : Candidates := xs.foldl push empty

def size (cs : Candidates) : Nat := cs.canonical.length + cs.legacy.length

def isEmpty (cs : Candidates) : Bool := cs.size == 0

def checkSingleton (cs : Candidates) : Except TooManyInstances Unit :=
  if 1 < cs.size then .error ⟨cs.legacy.length, cs.canonical.length⟩ else .ok ()

/-- classify objects in order, up to the first that fits no schema -/
def classifyAll : List Opaque → Except Unrecognized (List Classified)
  | [] => .ok []
  | x :: xs => do
    let c ← classify x
    let cs ← classifyAll xs
    return c :: cs

theorem classifyAll_singleton (d : Opaque) : classifyAll [d] = (classify d).map ([·]) := by
  rw [classifyAll]
  cases classify d <;> rfl

@[simp] theorem size_push (cs : Candidates) (c : Classified) : (cs.push c).size = cs.size + 1 := by
  cases c <;> simp [push, size] <;> omega

end Candidates

end MigrationOperator
