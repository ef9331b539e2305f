/-
What crosses the wire is text.

Each side reads the text that the other one wrote. A floating point number may arrive as a neighbour of the one that was
sent, since reading one is not exact; everything else arrives as it was.
-/
import MigrationOperator.Api.Request
import MigrationOperator.Api.Answer

namespace MigrationOperator

/-! ## Values -/

mutual

/-- the value as its text reads back -/
def Json.sent : Json → Json
  | .float x => (Json.ofText (Layout.json.render x)).toOption.getD (.float x)
  | .arr xs => .arr (Json.sentList xs)
  | .obj ms => .obj (Json.sentMembers ms)
  | .null => .null
  | .bool b => .bool b
  | .int n => .int n
  | .str s => .str s

def Json.sentList : List Json → List Json
  | [] => []
  | x :: xs => x.sent :: Json.sentList xs

def Json.sentMembers : List (String × Json) → List (String × Json)
  | [] => []
  | (k, v) :: ms => (k, v.sent) :: Json.sentMembers ms

end

/-! ## Requests and answers -/

/-- the call as it arrives -/
def Call.sent : Call → Call
  | .readSecret name => .readSecret name
  | .list => .list
  | .read v name => .read v name
  | .create v object => .create v object.sent
  | .replace v name object => .replace v name object.sent
  | .patchStatus v name patch => .patchStatus v name patch.sent

/-- the request as it arrives -/
def Request.sent (r : Request) : Request := { r with call := r.call.sent }

/-- the answer as it arrives -/
def Answer.sent : Answer → Answer
  | .response code body => .response code (.ofText body.text)
  | .unreachable message => .unreachable message

/-- a server at the other end of the wire -/
def overWire {σ : Type} (serve : σ → Request → Answer × σ) (s : σ) (r : Request) : Answer × σ :=
  let (a, s) := serve s r.sent
  (a.sent, s)

/-- what is sent does not change where a request leads -/
theorem Request.target_sent (r : Request) : r.sent.target = r.target := by
  obtain ⟨ns, call⟩ := r
  cases call <;> rfl

end MigrationOperator
