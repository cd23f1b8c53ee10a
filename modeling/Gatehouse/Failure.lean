/-!
What can go wrong, from every part of the gateway.

A failure may be wrapped in the names of the operations that met it (`during`) without changing
what it is: `root`, `kind` and `denyReason?` look through that wrapping. A rejected credential
always reads the same (`message`), whatever the reason kept for the audit trail.
-/

namespace Gatehouse

/-- Why a client session could not take a notification or be ended. -/
inductive SessionFault where
  | closed
  | full
  | transport (text : String)
  deriving DecidableEq, Repr

def SessionFault.message : SessionFault → String
  | .closed => "session closed"
  | .full => "session outbox full"
  | .transport text => "transport error: " ++ text

/-- Why a credential was rejected. For the audit trail only. -/
inductive DenyReason where
  | malformedToken
  | badSignature
  | wrongAlgorithm
  | expired
  | missingClaim
  | wrongKeyType
  | keyExpired
  | accessDenied
  deriving DecidableEq, Repr

/-- The stable word for a reason in audit events. -/
def DenyReason.word : DenyReason → String
  | .malformedToken => "malformed_token"
  | .badSignature => "bad_signature"
  | .wrongAlgorithm => "wrong_algorithm"
  | .expired => "expired"
  | .missingClaim => "missing_claim"
  | .wrongKeyType => "wrong_key_type"
  | .keyExpired => "key_expired"
  | .accessDenied => "access_denied"

inductive FailureKind where
  | unauthorized
  | invalidIssueTime
  | malformedEntity
  | notFound
  | conflict
  | unsubscribe
  | remote
  | config
  | internal
  deriving DecidableEq, Repr

inductive Failure where
  /-- A rejected credential. -/
  | unauthorized (reason : DenyReason)
  /-- A credential rejected because a collaborator failed. -/
  | denied (reason : DenyReason) (cause : Failure)
  /-- The issue time of a key has no sub-second part. -/
  | invalidIssueTime
  | malformedEntity (text : String)
  | notFound
  | conflict
  /-- An observer's session could not be ended. -/
  | unsubscribe (fault : SessionFault)
  /-- An external collaborator failed. -/
  | remote (text : String)
  /-- The named operation met `cause`. -/
  | during (operation : String) (cause : Failure)
  | config (text : String)
  | io (text : String)
  | json (text : String)
  | internal (text : String)
  deriving DecidableEq, Repr, Inhabited

namespace Failure

/-- The text for people: operation names outermost first, then the failure itself. -/
def message : Failure → String
  | unauthorized _ => "unauthorized access"
  | denied _ _ => "unauthorized access"
  | invalidIssueTime => "invalid key issue time"
  | malformedEntity text => "malformed entity specification: " ++ text
  | notFound => "entity not found"
  | conflict => "entity already exists"
  | unsubscribe fault => "unable to unsubscribe: " ++ fault.message
  | remote text => "upstream error: " ++ text
  | during operation cause => operation ++ ": " ++ cause.message
  | config text => "Configuration error: " ++ text
  | io text => "IO error: " ++ text
  | json text => "JSON error: " ++ text
  | internal text => "Internal error: " ++ text

/-- The failure without the operations around it. -/
def root : Failure → Failure
  | during _ cause => cause.root
  | e => e

def kind : Failure → FailureKind
  | during _ cause => cause.kind
  | unauthorized _ => .unauthorized
  | denied _ _ => .unauthorized
  | invalidIssueTime => .invalidIssueTime
  | malformedEntity _ => .malformedEntity
  | notFound => .notFound
  | conflict => .conflict
  | unsubscribe _ => .unsubscribe
  | remote _ => .remote
  | config _ => .config
  | io _ => .internal
  | json _ => .internal
  | internal _ => .internal

def denyReason? : Failure → Option DenyReason
  | during _ cause => cause.denyReason?
  | unauthorized reason => some reason
  | denied reason _ => some reason
  | _ => none

def isUnauthorized (e : Failure) : Bool := e.kind = .unauthorized

/-- What lies behind a failure: another failure, or the fault of a session or a library. -/
inductive Source where
  | failure (cause : Failure)
  | session (fault : SessionFault)
  | library (text : String)
  deriving DecidableEq, Repr

def source? : Failure → Option Source
  | denied _ cause => some (.failure cause)
  | during _ cause => some (.failure cause)
  | unsubscribe fault => some (.session fault)
  | io text => some (.library text)
  | json text => some (.library text)
  | _ => none

/-- Every cause behind a failure, the nearest first. -/
def sources : Failure → List Source
  | denied _ cause => .failure cause :: cause.sources
  | during _ cause => .failure cause :: cause.sources
  | unsubscribe fault => [.session fault]
  | io text => [.library text]
  | json text => [.library text]
  | _ => []

def Source.message : Source → String
  | .failure cause => cause.message
  | .session fault => fault.message
  | .library text => text

/-- Names several operations around a failure, the first one outermost. -/
def duringAll (operations : List String) (e : Failure) : Failure :=
  operations.foldr during e

theorem kind_root (e : Failure) : e.root.kind = e.kind := by
  induction e <;> simp_all [root, kind]

theorem denyReason?_root (e : Failure) : e.root.denyReason? = e.denyReason? := by
  induction e <;> simp_all [root, denyReason?]

end Failure
end Gatehouse
