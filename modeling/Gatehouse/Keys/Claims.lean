import Gatehouse.Keys.Key

/-!
What a token says. Times are whole seconds; empty texts and absent values are left out of the
written form.
-/

namespace Gatehouse

structure Claims where
  /-- Whom the token acts for, or the system itself. -/
  issuer : String := ""
  /-- The identity that a session token carries. -/
  subject : String := ""
  issuedAt : Int
  expiresAt : Option Int := none
  /-- The id of a stored key. -/
  id : String := ""
  kind : Option KeyKind := none
  deriving DecidableEq, Repr

namespace Claims

/-- The second of expiry has begun. -/
def isExpiredAt (c : Claims) (now : Instant) : Bool :=
  match c.expiresAt with
  | some t => t ≤ now.seconds
  | none => false

def toJson (c : Claims) : Json :=
  .object (
    Key.textMember "iss" c.issuer ++ Key.textMember "sub" c.subject ++
    [("iat", .integer c.issuedAt)] ++
    Key.optionalMember "exp" Json.integer c.expiresAt ++
    Key.textMember "jti" c.id ++
    Key.optionalMember "type" KeyKind.toJson c.kind)

/-- Claims of which some have been read. -/
structure Draft where
  issuer : Option String := none
  subject : Option String := none
  issuedAt : Option Int := none
  expiresAt : Option (Option Int) := none
  id : Option String := none
  kind : Option (Option KeyKind) := none

open Json.Read in
def fields : List (RecordField Draft) := [
  .slot "iss" Draft.issuer (fun d v => { d with issuer := v }) text,
  .slot "sub" Draft.subject (fun d v => { d with subject := v }) text,
  .slot "iat" Draft.issuedAt (fun d v => { d with issuedAt := v }) signed64,
  .slot "exp" Draft.expiresAt (fun d v => { d with expiresAt := v }) (optional signed64),
  .slot "jti" Draft.id (fun d v => { d with id := v }) text,
  .slot "type" Draft.kind (fun d v => { d with kind := v }) (optional KeyKind.read)]

def Draft.finish (d : Draft) : Except Json.Fault Claims := do
  return {
    issuer := d.issuer.getD ""
    subject := d.subject.getD ""
    issuedAt := ← Json.Read.required d.issuedAt
    expiresAt := d.expiresAt.getD none
    id := d.id.getD ""
    kind := d.kind.getD none }

def read : Json.Node → Except Json.Fault Claims := Json.Read.record fields {} Draft.finish

end Claims
end Gatehouse
