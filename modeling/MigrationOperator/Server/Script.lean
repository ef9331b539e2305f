/-
A cluster that answers from a script.

The n-th request gets the n-th reply, whatever it asks for. A reply may cancel the work that sends the requests; when the
script is exhausted, a request fails and the work is cancelled.
-/
import MigrationOperator.Server.Cluster

namespace MigrationOperator

/-- what a reply holds -/
inductive ReplyContent where
  | json (code : Nat) (body : Json)
  | text (code : Nat) (body : String)
  | failure (code : Nat) (reason : String)
  | listing (items : List Json)
  /-- the body of the request at another revision -/
  | echo (revision : Json)
  /-- an object with the status of the request at another revision -/
  | patched (object revision : Json)
  | unreachable (message : String)

structure Reply where
  content : ReplyContent
  cancels : Bool := false

structure Script where
  replies : List Reply
  /-- a reply cancelled the work -/
  cancelled : Bool := false

/-- the answer to a request -/
def ReplyContent.answer (r : Request) : ReplyContent → Answer
  | .json code body => .ofJson code body
  | .text code body => .response code (.ofText body)
  | .failure code reason => Cluster.failure code reason
  | .listing items => .ofJson 200 (Cluster.listing "100" items)
  | .echo revision => .ofJson 200 ((r.body.getD (.obj [])).setIn "metadata" "resourceVersion" revision)
  | .patched object revision =>
    let withStatus := object.set "status" (.ofOption (r.body.bind (·.get? "status")))
    .ofJson 200 (withStatus.setIn "metadata" "resourceVersion" revision)
  | .unreachable message => .unreachable message

def Script.serve (s : Script) (r : Request) : Answer × Script :=
  match s.replies with
  | [] => (Cluster.failure 500 "Exhausted", { s with cancelled := true })
  | reply :: replies => (reply.content.answer r, { replies, cancelled := s.cancelled || reply.cancels })

end MigrationOperator
