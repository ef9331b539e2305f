/-
Requests to the cluster.

A `Call` says what is asked for, a `Request` adds the namespace it is asked in. Method, path, query, content type and
body are read off a request. A request is not sent when it has a fault: an empty name, a target that is too long, or a
character that its target may not hold.
-/
import MigrationOperator.Api.Path
import MigrationOperator.Resource.Version
import MigrationOperator.Json.Value

namespace MigrationOperator

inductive Method where
  | get
  | post
  | put
  | patch
deriving DecidableEq

def Method.name : Method → String
  | .get => "GET"
  | .post => "POST"
  | .put => "PUT"
  | .patch => "PATCH"

/-- what is asked of the cluster -/
inductive Call where
  | readSecret (name : String)
  /-- every object of the kind, addressed as canonical -/
  | list
  | read (version : SchemaVersion) (name : String)
  | create (version : SchemaVersion) (object : Json)
  | replace (version : SchemaVersion) (name : String) (object : Json)
  /-- merge a patch into the status of an object -/
  | patchStatus (version : SchemaVersion) (name : String) (patch : Json)

structure Request where
  namespaceName : String
  call : Call

/-- why a request is not sent -/
inductive RequestFault where
  | emptyName
  | longTarget
  | invalidTarget
deriving DecidableEq

def RequestFault.message : RequestFault → String
  | .emptyName => "failed to validate request: A non-empty name is required"
  | .longTarget => "failed to build request: uri too long"
  | .invalidTarget => "failed to build request: invalid uri character"

/-! ## Targets -/

/-- a path with its query, if it has one -/
structure Target where
  path : List Char
  query : Option (List Char)

namespace Target

/-- a fragment is cut off; the first question mark begins the query -/
def ofChars (cs : List Char) : Target :=
  let cs := cs.takeWhile (· ≠ '#')
  match cs.dropWhile (· ≠ '?') with
  | [] => ⟨cs, none⟩
  | _ :: query => ⟨cs.takeWhile (· ≠ '?'), some query⟩

/-- neither a blank nor a control character of ASCII -/
def isGraphic (c : Char) : Bool := ' ' < c && c ≠ '\x7f'

def allowsInPath (c : Char) : Bool := isGraphic c && c ≠ '<' && c ≠ '>' && c ≠ '`'

def allowsInQuery (c : Char) : Bool := isGraphic c && c ≠ '"' && c ≠ '<' && c ≠ '>'

/-- the greatest number of bytes of a target -/
def maxSize : Nat := 65534

def isValid (t : Target) : Bool := t.path.all allowsInPath && (t.query.getD []).all allowsInQuery

end Target

/-! ## Reading a request -/

namespace Call

def method : Call → Method
  | .readSecret _ | .list | .read _ _ => .get
  | .create _ _ => .post
  | .replace _ _ _ => .put
  | .patchStatus _ _ _ => .patch

/-- the name that a call needs -/
def name? : Call → Option String
  | .readSecret name | .read _ name | .replace _ name _ | .patchStatus _ name _ => some name
  | .list | .create _ _ => none

def isWrite : Call → Bool
  | .create _ _ | .replace _ _ _ | .patchStatus _ _ _ => true
  | .readSecret _ | .list | .read _ _ => false

def contentType : Call → Option String
  | .create _ _ | .replace _ _ _ => some "application/json"
  | .patchStatus _ _ _ => some "application/merge-patch+json"
  | .readSecret _ | .list | .read _ _ => none

/-- a call that may take parameters; its target ends in a question mark -/
def takesParameters : Call → Bool
  | .list | .create _ _ | .replace _ _ _ | .patchStatus _ _ _ => true
  | .readSecret _ | .read _ _ => false

def body : Call → Option Json
  | .create _ object | .replace _ _ object => some object
  | .patchStatus _ _ patch => some patch
  | .readSecret _ | .list | .read _ _ => none

end Call

namespace Request

/-- the steps to the objects of a version -/
def collection (r : Request) (v : SchemaVersion) : List String :=
  ["apis", SchemaVersion.group, v.name, "namespaces", r.namespaceName, SchemaVersion.plural]

/-- the steps of the path -/
def steps (r : Request) : List String :=
  match r.call with
  | .readSecret name => ["api", "v1", "namespaces", r.namespaceName, "secrets", name]
  | .list => r.collection .canonical
  | .create v _ => r.collection v
  | .read v name | .replace v name _ => r.collection v ++ [name]
  | .patchStatus v name _ => r.collection v ++ [name, "status"]

/-- the target as it is written -/
def targetChars (r : Request) : List Char :=
  Path.ofSteps r.steps ++ if r.call.takesParameters then ['?'] else []

def target (r : Request) : Target := .ofChars r.targetChars

def method (r : Request) : Method := r.call.method

def path (r : Request) : String := String.ofList r.target.path

/-- the query, unless it is empty -/
def query (r : Request) : Option String := r.target.query.bind fun cs => if cs.isEmpty then none else some (.ofList cs)

def contentType (r : Request) : Option String := r.call.contentType

def body (r : Request) : Option Json := r.call.body

def isWrite (r : Request) : Bool := r.call.isWrite

def fault? (r : Request) : Option RequestFault :=
  if r.call.name? = some "" then some .emptyName
  else if Target.maxSize < (String.ofList r.targetChars).utf8ByteSize then some .longTarget
  else if r.target.isValid then none
  else some .invalidTarget

end Request

end MigrationOperator
