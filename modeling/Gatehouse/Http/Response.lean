import Gatehouse.Failure
import Gatehouse.Json.Value

/-!
Answers to HTTP requests, and how a failure is answered.

The answer to a failure tells its class and, for the caller's own mistakes, the text of the failure
without the operations around it. Failures of the gateway itself are all answered alike.
-/

namespace Gatehouse.Http

inductive Body where
  | empty
  | json (value : Json)
  /-- Words for people that are no JSON. -/
  | words

structure Response where
  status : Nat
  body : Body

def statusOf : FailureKind → Nat
  | .unauthorized => 403
  | .malformedEntity => 400
  | .invalidIssueTime => 400
  | .notFound => 404
  | .conflict => 409
  | .unsubscribe => 500
  | .remote => 500
  | .config => 500
  | .internal => 500

def codeOf : FailureKind → String
  | .unauthorized => "unauthorized"
  | .malformedEntity => "malformed_entity"
  | .invalidIssueTime => "malformed_entity"
  | .notFound => "not_found"
  | .conflict => "conflict"
  | _ => "internal_error"

/-- The failure is the gateway's own. -/
def isServerFault (e : Failure) : Bool := 500 ≤ statusOf e.kind

/-- An answer that tells what went wrong. -/
def refusal (status : Nat) (code message : String) : Response :=
  ⟨status, .json (.object [("error", .text code), ("message", .text message)])⟩

def Response.ofFailure (e : Failure) : Response :=
  refusal (statusOf e.kind) (codeOf e.kind)
    (if isServerFault e then "internal error" else e.root.message)

end Gatehouse.Http
