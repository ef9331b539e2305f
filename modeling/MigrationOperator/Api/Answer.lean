/-
Answers of the cluster.

An answer is a response with a code and a body, or the failure to get one. A response from 400 to 599 is an error: its body
is read as a status object, and where it is none the code and the text of the response stand in. Any other response is
a success, whose body is decoded as what was asked for.
-/
import MigrationOperator.Codec.Record
import MigrationOperator.Json.Reader
import MigrationOperator.Json.Writer
import MigrationOperator.Resource.Opaque

namespace MigrationOperator

/-! ## Bodies -/

/-- the text of a response and the document it holds -/
structure Body where
  text : String
  reading : Reading

def Body.ofText (s : String) : Body := ⟨s, Reading.ofText s⟩

def Body.ofJson (j : Json) : Body := ⟨j.text, j.reading⟩

inductive Answer where
  | response (code : Nat) (body : Body)
  /-- no response came back -/
  | unreachable (message : String)

def Answer.ofJson (code : Nat) (j : Json) : Answer := .response code (.ofJson j)

/-- the answer with a status object that reports a failure -/
def Answer.failure (code : Nat) (reason message : String) : Answer :=
  .ofJson code <| .object [("apiVersion", .str "v1"), ("kind", .str "Status"), ("metadata", .object []),
    ("status", .str "Failure"), ("message", .str message), ("reason", .str reason), ("code", .int code)]

/-! ## Status objects -/

/-- an error that the cluster answered -/
structure ApiFault where
  code : Nat
  reason : String
  message : String
deriving DecidableEq

namespace ApiFault

/-- one of the two summaries of a status, as text or as an object with that key alone -/
def summary : Codec Bool where
  schema := .any
  read
    | .str s => ofName s
    | .obj [(k, .null)] ending => do
      let b ← ofName k
      DecodeError.ofText ending.check
      return b
    | d => .error (.mismatch d "a summary")
  write b := .str (if b then "Success" else "Failure")
where
  ofName (s : String) : Except DecodeError Bool :=
    if s = "Success" then .ok true
    else if s = "Failure" then .ok false
    else .error (.disallowed (.text s) "Success or Failure")

/-- a cause: reason, message and field -/
def cause : Codec (String × String × String × Unit) :=
  .record (.lenient "StatusCause")
    (.cons (.text "reason") <| .cons (.text "message") <| .cons (.text "field") .nil) id id

/-- a count that may be left out -/
def seconds : Column UInt32 := { name := "retryAfterSeconds", codec := .uint32, absent := some 0 }

def details : Codec Unit :=
  .record (.lenient "StatusDetails")
    (.cons (.text "name") <|
     .cons (.text "group") <|
     .cons (.text "kind") <|
     .cons (.text "uid") <|
     .cons { name := "causes", codec := .list cause, absent := some [] } <|
     .cons seconds .nil)
    (fun () => ("", "", "", "", [], 0, ()))
    (fun _ => ())

/-- a status object, of which code, reason and message count -/
def codec : Codec ApiFault :=
  .record (.lenient "Status")
    (.cons (.optional "status" summary) <|
     .cons { name := "code", codec := .uint16, absent := some 0 } <|
     .cons (.text "message") <|
     .cons (.optional "metadata" ListMetadata.codec) <|
     .cons (.text "reason") <|
     .cons (.optional "details" details) .nil)
    (fun x => (none, UInt16.ofNat x.code, x.message, none, x.reason, none, ()))
    (fun (_, code, message, _, reason, _, ()) => ⟨code.toNat, reason, message⟩)

/-- the error that a response of an error code reports -/
def ofResponse (code : Nat) (body : Body) : ApiFault :=
  match codec.decodeText body.reading with
  | .ok fault => fault
  | .error _ => ⟨code, "Failed to parse error data", body.text⟩

end ApiFault

/-- the code of a response that reports an error -/
def isErrorCode (code : Nat) : Bool := 400 ≤ code && code < 600

/-! ## Lists of objects -/

structure ObjectList where
  metadata : ListMetadata
  items : List Opaque

namespace ObjectList

/-- what was met of a list so far -/
structure Partial where
  metadata : Option ListMetadata := none
  items : Option (List Opaque) := none

/-- null stands for no items -/
def itemsCodec : Codec (List Opaque) := (Codec.nullable (.list Opaque.codec)).imap (·.getD []) some

/-- members in the order of the document; those besides metadata and items may hold anything -/
def scan (l : Partial) : List (String × Doc) → Except DecodeError Partial
  | [] => .ok l
  | (k, d) :: rest => do
    if k = "metadata" then
      if l.metadata.isSome then throw (.duplicateField k)
      scan { l with metadata := some (← ListMetadata.codec.read d) } rest
    else if k = "items" then
      if l.items.isSome then throw (.duplicateField k)
      scan { l with items := some (← itemsCodec.read d) } rest
    else
      let _ ← DecodeError.ofText d.value
      scan l rest

def read : Doc → Except DecodeError ObjectList
  | .obj members ending => do
    let l ← scan {} members
    DecodeError.ofText ending.check
    match l.items with
    | some items => return ⟨l.metadata.getD default, items⟩
    | none => throw (.missingField "items")
  | d => .error (.mismatch d "ObjectList")

def write (l : ObjectList) : Json :=
  .object [("metadata", ListMetadata.codec.write l.metadata), ("items", itemsCodec.write l.items)]

def codec : Codec ObjectList := ⟨.any, read, write⟩

end ObjectList

end MigrationOperator
