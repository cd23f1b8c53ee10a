import Gatehouse.Failure

/-!
Answers to the requests of devices: a code of two numbers, and the token of the request.
-/

namespace Gatehouse.Observe

inductive ResponseCode where
  | created
  | deleted
  | content
  | badRequest
  | unauthorized
  | forbidden
  | methodNotAllowed
  | internalError
  deriving DecidableEq, Repr

namespace ResponseCode

/-- The code as class and detail. -/
def dotted : ResponseCode → String
  | created => "2.01"
  | deleted => "2.02"
  | content => "2.05"
  | badRequest => "4.00"
  | unauthorized => "4.01"
  | forbidden => "4.03"
  | methodNotAllowed => "4.05"
  | internalError => "5.00"

def isSuccess : ResponseCode → Bool
  | created => true
  | deleted => true
  | content => true
  | _ => false

def ofKind : FailureKind → ResponseCode
  | .unauthorized => forbidden
  | .malformedEntity => badRequest
  | .invalidIssueTime => badRequest
  | _ => internalError

def ofFailure (e : Failure) : ResponseCode := ofKind e.kind

end ResponseCode

structure Response where
  code : ResponseCode
  token : String
  deriving DecidableEq, Repr

end Gatehouse.Observe
