import Mathlib.Data.Nat.Notation
/-! The gRPC status codes, as the enumerations of `tonic` and `grpcio` have them, and their names on
the wire of the Connect protocol. -/
namespace InvariantProtocol.StatusCodes

inductive Code where
 | ok | cancelled | unknown | invalidArgument | deadlineExceeded | notFound | alreadyExists
 | permissionDenied | resourceExhausted | failedPrecondition | aborted | outOfRange
 | unimplemented | internal | unavailable | dataLoss | unauthenticated
 deriving DecidableEq

def Code.all : List Code :=
 [.ok,.cancelled,.unknown,.invalidArgument,.deadlineExceeded,.notFound,.alreadyExists,
  .permissionDenied,.resourceExhausted,.failedPrecondition,.aborted,.outOfRange,
  .unimplemented,.internal,.unavailable,.dataLoss,.unauthenticated]

def Code.number (code:Code) : ℕ:=Code.all.idxOf code

def Code.connectName : Code → String
 | .ok=>"ok"
 | .cancelled=>"canceled"
 | .unknown=>"unknown"
 | .invalidArgument=>"invalid_argument"
 | .deadlineExceeded=>"deadline_exceeded"
 | .notFound=>"not_found"
 | .alreadyExists=>"already_exists"
 | .permissionDenied=>"permission_denied"
 | .resourceExhausted=>"resource_exhausted"
 | .failedPrecondition=>"failed_precondition"
 | .aborted=>"aborted"
 | .outOfRange=>"out_of_range"
 | .unimplemented=>"unimplemented"
 | .internal=>"internal"
 | .unavailable=>"unavailable"
 | .dataLoss=>"data_loss"
 | .unauthenticated=>"unauthenticated"

lemma Code.find_connectName (code:Code) :
 (Code.all.find? fun candidate=>candidate.connectName=code.connectName)=some code := by
 cases code <;> decide
end InvariantProtocol.StatusCodes
