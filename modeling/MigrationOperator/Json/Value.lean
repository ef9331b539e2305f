/-
JSON values.

Objects list their members in ascending key order, one member a key; `Json.object` brings members into that form, and
every object of this library is built through it. Numbers are integers where the text gave one of 64 bits and binary
floating point numbers otherwise. `mergePatch` is the merge patch of RFC 7396, `pointer?` the lookup of RFC 6901.
-/
import MigrationOperator.StringMap
import MigrationOperator.Json.Binary64

namespace MigrationOperator

inductive Json where
  | null
  | bool (b : Bool)
  | int (n : Int)
  | float (x : Binary64)
  | str (s : String)
  | arr (items : List Json)
  /-- members in ascending key order -/
  | obj (members : List (String × Json))

namespace Json

instance : Inhabited Json := ⟨.null⟩

/-- an object of members in any order; of two with one key the later stays -/
def object (members : List (String × Json)) : Json := .obj (Entries.ofList members)

/-- null where there is no value -/
def ofOption (j : Option Json) : Json := j.getD .null

def strings (xs : List String) : Json := .arr (xs.map .str)

/-- the members of an object; anything else has none -/
def members : Json → List (String × Json)
  | .obj ms => ms
  | _ => []

def get? (k : String) (j : Json) : Option Json := Entries.find? k j.members

/-- the value at the end of a path of member names -/
def at? : List String → Json → Option Json
  | [], j => some j
  | k :: ks, j => (j.get? k).bind (at? ks)

def isNull : Json → Bool
  | .null => true
  | _ => false

def asString? : Json → Option String
  | .str s => some s
  | _ => none

/-- set a member of an object; null counts as an empty one, and anything else stays as it is -/
def set (j : Json) (k : String) (v : Json) : Json :=
  match j with
  | .obj ms => .obj (Entries.insert k v ms)
  | .null => .obj [(k, v)]
  | j => j

/-- drop a member of an object; anything else stays as it is -/
def unset (j : Json) (k : String) : Json :=
  match j with
  | .obj ms => .obj (Entries.erase k ms)
  | j => j

/-- set a member of the object that is itself a member; that one is created where there is none -/
def setIn (j : Json) (outer inner : String) (v : Json) : Json :=
  j.set outer (.obj (Entries.insert inner v ((j.get? outer).getD .null).members))

/-! ## Merge patch -/

mutual

/-- merge a patch into a target: members of the patch replace those of the target, and null removes them -/
def mergePatch : Json → Json → Json
  | .obj ms, target => .obj (mergeMembers ms target.members)
  | .null, _ => .null
  | .bool b, _ => .bool b
  | .int n, _ => .int n
  | .float x, _ => .float x
  | .str s, _ => .str s
  | .arr xs, _ => .arr xs

def mergeMembers : List (String × Json) → List (String × Json) → List (String × Json)
  | [], target => target
  | (k, v) :: ms, target =>
    mergeMembers ms <|
      if v.isNull then Entries.erase k target
      else Entries.insert k (mergePatch v ((Entries.find? k target).getD .null)) target

end

/-! ## Pointers -/

/-- one reference token with `~1` read as a slash and `~0` as a tilde; a tilde before anything else stands for itself -/
def unescapeToken : List Char → List Char
  | '~' :: '1' :: cs => '/' :: unescapeToken cs
  | '~' :: '0' :: cs => '~' :: unescapeToken cs
  | c :: cs => c :: unescapeToken cs
  | [] => []

/-- the index a token names: ASCII digits without a leading zero -/
def indexOfToken? (token : List Char) : Option Nat :=
  match token with
  | [] => none
  | ['0'] => some 0
  | c :: cs =>
    if c ≠ '0' ∧ (c :: cs).all Char.isDigit then some ((c :: cs).foldl (fun n d => n * 10 + (d.toNat - 48)) 0) else none

def step? (j : Json) (token : List Char) : Option Json :=
  match j with
  | .obj ms => Entries.find? (String.ofList token) ms
  | .arr xs => (indexOfToken? token).bind (xs[·]?)
  | _ => none

/-- the value a pointer names; the empty pointer names the whole value -/
def pointer? (pointer : String) (j : Json) : Option Json :=
  if pointer.isEmpty then some j
  else
    match pointer.splitOn "/" with
    | "" :: tokens => tokens.foldl (fun j t => j.bind (·.step? (unescapeToken t.toList))) (some j)
    | _ => none

end Json

end MigrationOperator
