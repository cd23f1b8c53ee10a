import Gatehouse.Failure
import Gatehouse.Json.Value
import Gatehouse.Json.Reader
import Gatehouse.Time.Rfc3339

/-!
Keys: the record of a bearer credential, and its written form.
-/

namespace Gatehouse

/-- What a key is for: a session, a password reset, or a stored key that can be revoked. -/
inductive KeyKind where
  | login
  | reset
  | user
  deriving DecidableEq, Repr

namespace KeyKind

def word : KeyKind → String
  | login => "login"
  | reset => "reset"
  | user => "user"

def words : List (String × KeyKind) := [("login", login), ("reset", reset), ("user", user)]

def code : KeyKind → Nat
  | login => 0
  | reset => 1
  | user => 2

/-- The kind of a number in requests. -/
def ofCode : Nat → Except Failure KeyKind
  | 0 => .ok login
  | 1 => .ok reset
  | 2 => .ok user
  | n => .error (.malformedEntity ("unsupported key type " ++ String.ofList (Text.natDigits n)))

theorem ofCode_code (k : KeyKind) : ofCode k.code = .ok k := by cases k <;> rfl

def toJson (k : KeyKind) : Json := .text k.word

def read : Json.Node → Except Json.Fault KeyKind := Json.Read.choice words

end KeyKind

structure Key where
  /-- Empty for keys that are not stored. -/
  id : String
  kind : KeyKind
  /-- Whom the key acts for; the system itself for keys that are not stored. -/
  issuer : String
  /-- The signed token when the key is issued, its digest where the key is stored. -/
  secret : String
  issuedAt : Instant
  /-- Without a value the key never expires. -/
  expiresAt : Option Instant
  deriving DecidableEq, Repr

namespace Key

/-- The expiry has come. -/
def isExpiredAt (key : Key) (now : Instant) : Bool :=
  match key.expiresAt with
  | some t => t ≤ now
  | none => false

/-- A member of a record, left out if its text is empty. -/
def textMember (name value : String) : List (String × Json) :=
  if value.isEmpty then [] else [(name, .text value)]

/-- A member of a record, left out if there is no value. -/
def optionalMember {α : Type} (name : String) (toJson : α → Json) : Option α → List (String × Json)
  | some a => [(name, toJson a)]
  | none => []

def instantToJson (t : Instant) : Json := .text (Rfc3339.render t)

def readInstant (node : Json.Node) : Except Json.Fault Instant := do
  match Rfc3339.read? (← Json.Read.text node) with
  | some t => .ok t
  | none => .error .mismatch

def toJson (key : Key) : Json :=
  .object (
    [("id", .text key.id), ("type", key.kind.toJson), ("issuer", .text key.issuer)] ++
    textMember "secret" key.secret ++
    [("issued_at", instantToJson key.issuedAt)] ++
    optionalMember "expires_at" instantToJson key.expiresAt)

/-- A key of which some fields have been read. -/
structure Draft where
  id : Option String := none
  kind : Option KeyKind := none
  issuer : Option String := none
  secret : Option String := none
  issuedAt : Option Instant := none
  expiresAt : Option (Option Instant) := none

open Json.Read in
def fields : List (RecordField Draft) := [
  .slot "id" Draft.id (fun d v => { d with id := v }) text,
  .slot "type" Draft.kind (fun d v => { d with kind := v }) KeyKind.read,
  .slot "issuer" Draft.issuer (fun d v => { d with issuer := v }) text,
  .slot "secret" Draft.secret (fun d v => { d with secret := v }) text,
  .slot "issued_at" Draft.issuedAt (fun d v => { d with issuedAt := v }) readInstant,
  .slot "expires_at" Draft.expiresAt (fun d v => { d with expiresAt := v }) (optional readInstant)]

def Draft.finish (d : Draft) : Except Json.Fault Key := do
  return {
    id := d.id.getD ""
    kind := ← Json.Read.required d.kind
    issuer := d.issuer.getD ""
    secret := d.secret.getD ""
    issuedAt := ← Json.Read.required d.issuedAt
    expiresAt := d.expiresAt.getD none }

def read : Json.Node → Except Json.Fault Key := Json.Read.record fields {} Draft.finish

end Key
end Gatehouse
