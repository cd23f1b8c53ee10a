import Gatehouse.Keys.Plan
import Gatehouse.Keys.Token

/-!
The key service: issuing, revoking, fetching and checking keys.

Login keys are issued to anyone the caller vouches for. Reset and user keys, and everything about
stored keys, need a valid login key. Only user keys are stored; an expired one is deleted by the
first use that sees it. Every call sees one reading of the clock.
-/

namespace Gatehouse

structure KeyService where
  secret : String
  /-- The issuer of keys that are not stored. -/
  issuerName : String
  loginSpan : Span
  resetSpan : Span

namespace KeyService

abbrev Result (α : Type) := Except Failure α

def defaultIssuer : String := "devicegate.auth"

/-- The service with the usual issuer name, ten hours for login keys and five minutes for reset
keys. -/
def standard (secret : String) : KeyService :=
  ⟨secret, defaultIssuer, .ofSeconds 36000, .ofSeconds 300⟩

def during {α : Type} (operation : String) : Result α → Result α
  | .ok a => .ok a
  | .error e => .error (.during operation e)

def deny {α : Type} (operation : String) (reason : DenyReason) : Plan (Result α) :=
  .record (.denied operation reason) (.done (.error (.unauthorized reason)))

/-- Deletes a key that was found expired. That it could not be deleted is no failure of the
operation. -/
def removeExpired {α : Type} (issuer id : String) (next : Plan α) : Plan α :=
  .remove issuer id fun
    | .ok () => .record (.expired issuer id) next
    | .error e => .notify (.expiredKeyKept id e) (.record (.expired issuer id) next)

/-- The identity that the claims of a checked token stand for. -/
def identifyClaims (now : Instant) (operation : String) (claims : Claims) : Plan (Result String) :=
  match claims.kind with
  | some .user =>
    .retrieve claims.issuer claims.id fun
      | .error e => .done (.error e)
      | .ok key =>
        if key.isExpiredAt now then
          removeExpired claims.issuer claims.id (deny operation .keyExpired)
        else .done (.ok claims.issuer)
  | some .login =>
    if claims.subject.isEmpty then deny operation .missingClaim else .done (.ok claims.subject)
  | some .reset =>
    if claims.issuer.isEmpty then deny operation .missingClaim else .done (.ok claims.issuer)
  | none => deny operation .wrongKeyType

def login (s : KeyService) (now : Instant) (operation token : String) : Plan (Result String) :=
  match Token.parse s.secret token now with
  | .error fault => deny operation fault.reason
  | .ok claims =>
    if claims.kind = some .login then identifyClaims now operation claims
    else deny operation .wrongKeyType

/-- The identity behind any key. An expired user key is looked up all the same, so that it is
deleted. -/
def identify (s : KeyService) (now : Instant) (token : String) : Plan (Result String) :=
  match Token.parse s.secret token now with
  | .ok claims => identifyClaims now "identify" claims
  | .error (.expired claims) =>
    if claims.kind = some .user then identifyClaims now "identify" claims
    else deny "identify" .expired
  | .error fault => deny "identify" fault.reason

def sessionClaims (s : KeyService) (subject : String) (request : Key) (expiresAt : Instant) :
    Claims where
  issuer := s.issuerName
  subject := subject
  issuedAt := request.issuedAt.seconds
  expiresAt := some expiresAt.seconds
  kind := some request.kind

/-- A key that is not stored. It expires at a whole second, as its token says. -/
def sessionKey (s : KeyService) (subject : String) (span : Span) (request : Key) :
    Plan (Result Key) :=
  match request.issuedAt.add? span with
  | none => .crash
  | some t =>
    let key : Key := { request with
      id := ""
      issuer := s.issuerName
      expiresAt := some t.floor
      secret := Token.issue s.secret (s.sessionClaims subject request t.floor) }
    .record (.issued subject "" key.kind) (.done (.ok key))

def userClaims (issuer id : String) (issuedAt : Instant) (expiresAt : Option Instant) : Claims where
  issuer := issuer
  issuedAt := issuedAt.seconds
  expiresAt := expiresAt.map Instant.seconds
  id := id
  kind := some .user

def userKeyOf (s : KeyService) (issuer id : String) (request : Key) : Key := { request with
  id := id
  issuer := issuer
  secret := Token.issue s.secret (userClaims issuer id request.issuedAt request.expiresAt) }

/-- The record of a key in the store: its token only as a digest. -/
def recordOf (key : Key) : Key := { key with secret := Vault.digest key.secret }

def userKey (s : KeyService) (now : Instant) (token : String) (request : Key) :
    Plan (Result Key) := do
  match ← s.login now "issue user key" token with
  | .error e => return .error (.during "issue user key" e)
  | .ok identity =>
    .freshId fun
      | .error e => .done (.error (.during "issue user key" e))
      | .ok id =>
        let key := s.userKeyOf identity id request
        .save (recordOf key) fun
          | .error e => .done (.error (.during "issue user key" e))
          | .ok _ => .record (.issued identity id key.kind) (.done (.ok key))

/-- Issues the key that a request describes. For login keys `issuer` is the identity, for all others
the token of a login key. -/
def issue (s : KeyService) (now : Instant) (issuer : String) (request : Key) :
    Plan (Result Key) :=
  if request.issuedAt.nanos = 0 then .done (.error .invalidIssueTime)
  else
    match request.kind with
    | .login =>
      if issuer.isEmpty then .done (.error (.malformedEntity "empty issuer"))
      else s.sessionKey issuer s.loginSpan request
    | .reset => do
      match ← s.login now "issue reset key" issuer with
      | .error e => return .error (.during "issue reset key" e)
      | .ok identity => s.sessionKey identity s.resetSpan request
    | .user => s.userKey now issuer request

/-- Revokes a stored key of the holder of a login key. That there is no such key is no failure. -/
def revoke (s : KeyService) (now : Instant) (token id : String) : Plan (Result Unit) :=
  if id.isEmpty then .done (.error (.malformedEntity "empty key id"))
  else do
    match ← s.login now "revoke key" token with
    | .error e => return .error (.during "revoke key" e)
    | .ok identity =>
      .remove identity id fun
        | .error e => .done (.error (.during "revoke key" e))
        | .ok () => .record (.revoked identity id) (.done (.ok ()))

def retrieve (s : KeyService) (now : Instant) (token id : String) : Plan (Result Key) :=
  if id.isEmpty then .done (.error (.malformedEntity "empty key id"))
  else do
    match ← s.login now "retrieve key" token with
    | .error e => return .error (.during "retrieve key" e)
    | .ok identity =>
      .retrieve identity id fun
        | .error e => .done (.error (.during "retrieve key" e))
        | .ok key =>
          if key.isExpiredAt now then
            removeExpired identity id do
              return during "retrieve key" (← deny "retrieve key" .keyExpired)
          else .record (.retrieved identity id) (.done (.ok key))

/-- The issue time of a new key: now, moved on by a nanosecond from the start of a second, which
would be refused. -/
def issueTime (now : Instant) : Instant :=
  if now.nanos = 0 then ⟨now.seconds, 1, by decide⟩ else now

end KeyService
end Gatehouse
