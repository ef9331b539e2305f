/-
Errors of the operator.

An error is returned as it came: an error that the cluster answered, a response that does not decode, a request that was not
sent or got no response, or one of the operator's own. A conflict is a write that lost against another one.
-/
import MigrationOperator.Api.Request
import MigrationOperator.Api.Answer
import MigrationOperator.Candidates

namespace MigrationOperator

inductive OperatorError where
  /-- the cluster answered with an error -/
  | api (fault : ApiFault)
  /-- the body of a success does not decode -/
  | undecodable (e : DecodeError)
  | unsendable (fault : RequestFault)
  | unreachable (message : String)
  /-- an object that was written and read back is not what was written -/
  | serialization (e : DecodeError)
  | unrecognized (e : Unrecognized)
  | tooMany (e : TooManyInstances)
deriving DecidableEq

namespace OperatorError

/-- what the error says; a body that does not decode is not quoted -/
def message : OperatorError → String
  | .api fault => fault.message
  | .undecodable e => e.message
  | .unsendable fault => fault.message
  | .unreachable message => message
  | .serialization e => "Serialization error: " ++ e.message
  | .unrecognized e => e.message
  | .tooMany e => e.message

/-- a write was refused because the object had changed -/
def isConflict : OperatorError → Bool
  | .api fault => fault.code == 409
  | _ => false

/-- there is no such object -/
def isNotFound : OperatorError → Bool
  | .api fault => fault.code == 404
  | _ => false

end OperatorError

end MigrationOperator
