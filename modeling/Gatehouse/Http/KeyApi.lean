import Gatehouse.Http.Request
import Gatehouse.Http.Response
import Gatehouse.Keys.Service

/-!
The endpoints for keys, behind the reading of path and method.

A body that cannot be understood is refused before the credential is looked at. Login keys are not
issued here.
-/

namespace Gatehouse.Http

structure IssueOrder where
  /-- The number of the kind; without it a user key is meant. -/
  kind : Option Nat := none
  /-- How long a user key lives, in seconds; without it forever. -/
  duration : Option Nat := none
  deriving DecidableEq, Repr

namespace IssueOrder

structure Draft where
  kind : Option (Option Nat) := none
  duration : Option (Option Nat) := none

open Json.Read in
def fields : List (RecordField Draft) := [
  .slot "type" Draft.kind (fun d v => { d with kind := v }) (optional (natural Text.max32)),
  .slot "duration" Draft.duration (fun d v => { d with duration := v })
    (optional (natural Text.max64))]

def read : Json.Node → Except Json.Fault IssueOrder :=
  Json.Read.record fields {} fun d => .ok ⟨d.kind.getD none, d.duration.getD none⟩

/-- The order in a body. An empty body leaves everything open. -/
def ofBody (body : List UInt8) : Except Json.Fault IssueOrder :=
  if body.isEmpty then .ok {} else Json.Read.document read (Json.Document.ofBytes body)

end IssueOrder

def misunderstood (message : String) : Response := refusal 400 "malformed_entity" message

/-- Answers with a failure; the operator is told of one that is the gateway's own. -/
def failed (e : Failure) : Plan Response :=
  if isServerFault e then .notify (.keyRequestFailed e) (.done (.ofFailure e))
  else .done (.ofFailure e)

def issued (key : Key) : Response :=
  ⟨201, .json (.object (
    [("id", .text key.id), ("value", .text key.secret),
      ("issued_at", Key.instantToJson key.issuedAt)] ++
    Key.optionalMember "expires_at" Key.instantToJson key.expiresAt))⟩

/-- The answer that carries the record of a key. The digest of its token stays here. -/
def shown (key : Key) : Response := ⟨200, .json { key with secret := "" }.toJson⟩

/-- The key that an order asks for, or why there can be none. -/
def IssueOrder.request (o : IssueOrder) (issuedAt : Instant) : Except Response Key :=
  match o.kind.elim (.ok .user) KeyKind.ofCode with
  | .error e => .error (.ofFailure e)
  | .ok .login => .error (misunderstood "login keys are not issued over HTTP")
  | .ok .reset => .ok ⟨"", .reset, "", "", issuedAt, none⟩
  | .ok .user =>
    match o.duration with
    | none => .ok ⟨"", .user, "", "", issuedAt, none⟩
    | some n =>
      match issuedAt.addSeconds? n with
      | some t => .ok ⟨"", .user, "", "", issuedAt, some t⟩
      | none => .error (misunderstood "duration out of range")

/-- `POST /keys`. -/
def issueKey (s : KeyService) (now : Instant) (credential : String) (body : List UInt8) :
    Plan Response :=
  match IssueOrder.ofBody body with
  | .error fault => .done (misunderstood fault.message)
  | .ok order =>
    match order.request (KeyService.issueTime now) with
    | .error answer => .done answer
    | .ok request => do
      match ← s.issue now credential request with
      | .ok key => return issued key
      | .error e => failed e

/-- `GET /keys/{id}`. -/
def showKey (s : KeyService) (now : Instant) (credential id : String) : Plan Response := do
  match ← s.retrieve now credential id with
  | .ok key => return shown key
  | .error e => failed e

/-- `DELETE /keys/{id}`. -/
def revokeKey (s : KeyService) (now : Instant) (credential id : String) : Plan Response := do
  match ← s.revoke now credential id with
  | .ok () => return ⟨204, .empty⟩
  | .error e => failed e

def readToken : Json.Node → Except Json.Fault String :=
  Json.Read.record
    [.slot "token" id (fun (_ : Option String) v => v) Json.Read.text] none Json.Read.required

/-- `POST /identify`. -/
def identifyToken (s : KeyService) (now : Instant) (token : String) : Plan Response := do
  match ← s.identify now token with
  | .ok identity => return ⟨200, .json (.object [("identity", .text identity)])⟩
  | .error e => failed e

/-- `GET /health`. -/
def healthy : Response := ⟨200, .json (.object [("status", .text "ok")])⟩

end Gatehouse.Http
