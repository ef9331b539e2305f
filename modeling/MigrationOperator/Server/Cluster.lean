/-
A cluster held in memory.

Objects are stored by name and every accepted write of one gets a fresh revision. A write that carries a revision is refused
with a conflict when the object has another one, so of two writes that start from one state only the first is accepted.
Creation ignores the status, a replacement keeps the stored one, and a status patch touches nothing else. Faults can be
injected: each makes a number of requests of one method fail before anything else happens. A request is read off its
path; with plain names that is the call that was meant (`serve_of_plain`).
-/
import MigrationOperator.Api.Route
import MigrationOperator.Api.Answer
import MigrationOperator.StringMap
import MigrationOperator.Text.Lowercase

namespace MigrationOperator

/-- requests of one method fail so many times -/
structure InjectedFault where
  method : Method
  code : Nat := 500
  reason : String := "InternalError"
  times : Nat := 1

structure Cluster where
  objects : StringMap Json := .empty
  secrets : StringMap Json := .empty
  /-- the kind is installed -/
  served : Bool := true
  /-- the revision of the latest write -/
  revision : Nat := 100
  faults : List InjectedFault := []

namespace Cluster

/-! ## Objects -/

def nameOf (object : Json) : String := ((object.at? ["metadata", "name"]).bind Json.asString?).getD ""

def revisionOf (object : Json) : Option String := (object.at? ["metadata", "resourceVersion"]).bind Json.asString?

/-- the object as it is read under a version -/
def label (v : SchemaVersion) (object : Json) : Json := object.set "apiVersion" (.str v.apiVersion)

/-- store an object under a name at the next revision -/
def store (c : Cluster) (name : String) (object : Json) : Json × Cluster :=
  let stored := object.setIn "metadata" "resourceVersion" (.str (toString (c.revision + 1)))
  (stored, { c with objects := c.objects.insert name stored, revision := c.revision + 1 })

/-- store an object under its own name -/
def put (c : Cluster) (object : Json) : Cluster := (c.store (nameOf object) object).2

/-- a cluster that holds objects, stored in order -/
def ofObjects (objects : List Json) : Cluster := objects.foldl put {}

def delete (c : Cluster) (name : String) : Cluster := { c with objects := c.objects.erase name }

/-- the object with a patch merged into one part of it -/
def mergePart (part : String) (patch object : Json) : Json :=
  object.set part (Json.mergePatch patch (.ofOption (object.get? part)))

/-- merge a patch into one part of a stored object, if there is one -/
def edit (c : Cluster) (name part : String) (patch : Json) : Cluster :=
  match c.objects.get? name with
  | some object => (c.store name (mergePart part patch object)).2
  | none => c

def setSecret (c : Cluster) (name : String) : Option Json → Cluster
  | some secret => { c with secrets := c.secrets.insert name secret }
  | none => { c with secrets := c.secrets.erase name }

def injectFault (c : Cluster) (f : InjectedFault) : Cluster := { c with faults := c.faults ++ [f] }

/-! ## Answers -/

/-- the message of a failure is its reason in lower case -/
def failure (code : Nat) (reason : String) : Answer := .failure code reason (Lowercase.ofText reason)

def notFound : Answer := failure 404 "NotFound"

def alreadyExists : Answer := failure 409 "AlreadyExists"

def conflict : Answer := failure 409 "Conflict"

/-- a list of objects as the cluster answers it -/
def listing (revision : String) (items : List Json) : Json :=
  .object [("apiVersion", .str SchemaVersion.canonical.apiVersion), ("kind", .str (SchemaVersion.kind ++ "List")),
    ("metadata", .object [("resourceVersion", .str revision)]), ("items", .arr items)]

/-- a write that carries a revision carries the stored one -/
def isCurrent (body object : Json) : Bool :=
  match revisionOf body with
  | some revision => revisionOf object = some revision
  | none => true

/-- the stored status in place of the one that is given -/
def keepStatus (body object : Json) : Json :=
  match object.get? "status" with
  | some status => body.set "status" status
  | none => body.unset "status"

/-- write an object that exists, provided that the body is current -/
def update (c : Cluster) (v : SchemaVersion) (name : String) (body : Json) (change : Json → Json) : Answer × Cluster :=
  match c.objects.get? name with
  | none => (notFound, c)
  | some object =>
    if isCurrent body object then
      let (stored, c) := c.store name (change object)
      (.ofJson 200 (label v stored), c)
    else (conflict, c)

def create (c : Cluster) (v : SchemaVersion) (body : Json) : Answer × Cluster :=
  if (c.objects.get? (nameOf body)).isSome then (alreadyExists, c)
  else
    let (stored, c) := c.store (nameOf body) (body.unset "status")
    (.ofJson 201 (label v stored), c)

def found : Option Json → Answer
  | some j => .ofJson 200 j
  | none => notFound

/-- answer a call on the kind -/
def respond (c : Cluster) : Call → Answer × Cluster
  | .readSecret name => (found (c.secrets.get? name), c)
  | .list => (.ofJson 200 (listing (toString c.revision) (c.objects.values.map (label .canonical))), c)
  | .read v name => (found ((c.objects.get? name).map (label v)), c)
  | .create v body => c.create v body
  | .replace v name body => c.update v name body (keepStatus body)
  | .patchStatus v name patch =>
    c.update v name patch (mergePart "status" (.ofOption (patch.get? "status")))

/-- the first fault of a method that has times left, and the faults after it happened -/
def takeFault (m : Method) : List InjectedFault → Option (InjectedFault × List InjectedFault)
  | [] => none
  | f :: fs =>
    if f.method = m ∧ 0 < f.times then some (f, { f with times := f.times - 1 } :: fs)
    else (takeFault m fs).map fun (g, gs) => (g, f :: gs)

/-- the call is on the kind, not on secrets -/
def concernsKind : Call → Bool
  | .readSecret _ => false
  | _ => true

/-- answer a call; a kind that is not installed has nothing -/
def handle (c : Cluster) (call : Call) : Answer × Cluster :=
  if concernsKind call && !c.served then (notFound, c) else c.respond call

/-- answer a request; one that is not understood finds nothing -/
def serve (c : Cluster) (r : Request) : Answer × Cluster :=
  match takeFault r.method c.faults with
  | some (f, faults) => (failure f.code f.reason, { c with faults })
  | none =>
    match r.understood? with
    | some call => c.handle call
    | none => (notFound, c)

/-- without a fault, a request with plain names gets the answer to its call -/
theorem serve_of_plain {c : Cluster} {r : Request} (hf : takeFault r.method c.faults = none) (h : r.HasPlainNames) :
    c.serve r = c.handle r.call := by
  simp [serve, hf, Request.understood?_eq_call h]

end Cluster

end MigrationOperator
