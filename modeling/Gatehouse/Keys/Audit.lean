import Gatehouse.Keys.Key

/-!
The audit trail: what happened to which key, and which credential was rejected why.
-/

namespace Gatehouse

inductive AuditEvent where
  /-- A key was issued; its id is empty unless it is stored. -/
  | issued (identity id : String) (kind : KeyKind)
  | retrieved (identity id : String)
  | revoked (identity id : String)
  /-- An expired key was found and deleted on use. -/
  | expired (identity id : String)
  | denied (operation : String) (reason : DenyReason)
  deriving DecidableEq, Repr

namespace AuditEvent

def name : AuditEvent → String
  | issued .. => "key.issued"
  | retrieved .. => "key.retrieved"
  | revoked .. => "key.revoked"
  | expired .. => "key.expired"
  | denied .. => "token.denied"

/-- What an event tells beside its name. -/
def details : AuditEvent → List (String × Json)
  | issued identity id kind =>
    ("identity", .text identity) :: Key.textMember "key_id" id ++ [("key_type", kind.toJson)]
  | retrieved identity id => [("identity", .text identity), ("key_id", .text id)]
  | revoked identity id => [("identity", .text identity), ("key_id", .text id)]
  | expired identity id =>
    [("identity", .text identity), ("key_id", .text id), ("key_type", KeyKind.user.toJson)]
  | denied operation reason => [("operation", .text operation), ("reason", .text reason.word)]

def toJson (e : AuditEvent) : Json := .object (("event", .text e.name) :: e.details)

end AuditEvent
end Gatehouse
