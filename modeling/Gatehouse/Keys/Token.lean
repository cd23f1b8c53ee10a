import Gatehouse.Digest.Hmac
import Gatehouse.Keys.Claims
import Gatehouse.Keys.Jwk
import Gatehouse.Text.Base64

/-!
Tokens: claims signed with a shared secret, as three parts with dots between them.

The first part is a header that names the algorithm, the second holds the claims, the third the
keyed digest of the first two. Parts are URL-safe base64. Tokens are issued with SHA-256 and
accepted with any digest of the SHA-2 family; the signature is checked before the claims are read,
and expiry last, so that an expired token still shows its claims.
-/

namespace Gatehouse

inductive TokenFault where
  | malformed
  | badSignature
  | wrongAlgorithm
  | expired (claims : Claims)
  deriving DecidableEq, Repr

namespace TokenFault

def message : TokenFault → String
  | malformed => "malformed token"
  | badSignature => "invalid signature"
  | wrongAlgorithm => "unsupported algorithm"
  | expired _ => "token expired"

def reason : TokenFault → DenyReason
  | malformed => .malformedToken
  | badSignature => .badSignature
  | wrongAlgorithm => .wrongAlgorithm
  | expired _ => .expired

def toFailure (fault : TokenFault) : Failure := .unauthorized fault.reason

end TokenFault

namespace Token

/-- The algorithms that a header may name: keyed digests, and kinds of signature that are known
but not accepted. -/
inductive Algorithm where
  | hmac (f : Digest.HashFunction)
  | foreign

def algorithms : List (String × Algorithm) := [
  ("HS256", .hmac Digest.sha256), ("HS384", .hmac Digest.sha384), ("HS512", .hmac Digest.sha512),
  ("ES256", .foreign), ("ES384", .foreign), ("RS256", .foreign), ("RS384", .foreign),
  ("RS512", .foreign), ("PS256", .foreign), ("PS384", .foreign), ("PS512", .foreign),
  ("EdDSA", .foreign)]

def part (bytes : List UInt8) : List Char := Text.Base64.encode bytes

def bytesOf (cs : List Char) : List UInt8 := (String.ofList cs).toUTF8.toList

/-! ## The header -/

def issuedHeader : Json := .object [("typ", .text "JWT"), ("alg", .text "HS256")]

/-- The members of a header beside the algorithm that may be absent or a text. -/
def textMembers : List String :=
  ["typ", "cty", "jku", "kid", "x5u", "x5t", "x5t#S256", "enc", "zip", "url", "nonce"]

/-- The members that may be absent or a list of texts. -/
def listMembers : List String := ["x5c", "crit"]

/-- A header under construction: the known members met so far, and the algorithm. -/
structure HeaderDraft where
  met : List String := []
  algorithm : Option Algorithm := none

/-- Takes one member of a header. Any member without a meaning of its own must be a text, and only
such a member may come twice. -/
def headerMember (d : HeaderDraft) : Option String × Json.Node → Except Json.Fault HeaderDraft
  | (none, _) => .error .malformed
  | (some name, node) => do
    if d.met.contains name then .error .mismatch
    else if name = "alg" then
      let a ← Json.Read.choice algorithms node
      return ⟨name :: d.met, some a⟩
    else if textMembers.contains name then
      let _ ← Json.Read.optional Json.Read.text node
      return { d with met := name :: d.met }
    else if listMembers.contains name then
      let _ ← Json.Read.optional (Json.Read.list Json.Read.text) node
      return { d with met := name :: d.met }
    else if name = "jwk" then
      if Jwk.orNull Jwk.isKey node then return { d with met := name :: d.met }
      else .error .mismatch
    else
      let _ ← Json.Read.text node
      return d

def readHeader : Json.Node → Except Json.Fault Algorithm
  | .object members closed => do
    let d ← members.foldlM headerMember {}
    if closed then Json.Read.required d.algorithm else .error .malformed
  | node => Json.Read.refuse Algorithm node

/-! ## The claims -/

def valuesOf (name : String) (members : List (Option String × Json.Node)) : List Json.Node :=
  members.filterMap fun m => if m.1 = some name then some m.2 else none

/-- How deep an audience may be nested, inside the payload. -/
def audienceDepth : Nat := 126

/-- The payload is read a second time for the registered claims. They are not evaluated, but an
object must name none twice, and an array must have exactly their five places. A start of validity
or an audience that is no such thing is passed over, unless the reader stands within it then. -/
def registeredInOrder : Json.Node → Bool
  | .object members _ =>
    let starts := valuesOf "nbf" members
    let audiences := valuesOf "aud" members
    starts.length ≤ 1 && starts.all (fun node => node.numberHalt? ≠ some .within) &&
      audiences.length ≤ 1 &&
      audiences.all fun node => node.halt? audienceDepth ≠ some .within
  | .array items _ => items.length = 5
  | _ => false

def readClaims (bytes : List UInt8) : Option Claims :=
  let doc := Json.Document.ofBytes bytes
  match Json.Read.document Claims.read doc with
  | .ok claims => if registeredInOrder doc.root then some claims else none
  | .error _ => none

/-! ## Signing and checking -/

def signedText (header claims : List Char) : List Char := header ++ '.' :: claims

def mac (f : Digest.HashFunction) (secret : String) (text : List Char) : List UInt8 :=
  Digest.hmac f secret.toUTF8.toList (bytesOf text)

def issueChars (secret : String) (claims : Claims) : List Char :=
  let text := signedText (part (bytesOf issuedHeader.write)) (part (bytesOf claims.toJson.write))
  text ++ '.' :: part (mac Digest.sha256 secret text)

def issue (secret : String) (claims : Claims) : String := String.ofList (issueChars secret claims)

def algorithmOf (header : List Char) : Option Algorithm :=
  match Text.Base64.decode header with
  | none => none
  | some bytes =>
    match Json.Read.document readHeader (Json.Document.ofBytes bytes) with
    | .ok a => some a
    | .error _ => none

/-- The claims of a token that carries the right signature, expired or not. -/
def verify (secret : String) (token : List Char) : Except TokenFault Claims :=
  match Text.splitOn '.' token with
  | [header, payload, signature] =>
    match algorithmOf header with
    | none => .error .malformed
    | some .foreign => .error .wrongAlgorithm
    | some (.hmac f) =>
      match Text.Base64.decode signature with
      | none => .error .malformed
      | some bytes =>
        if bytes = mac f secret (signedText header payload) then
          match (Text.Base64.decode payload).bind readClaims with
          | some claims => .ok claims
          | none => .error .malformed
        else .error .badSignature
  | _ => .error .malformed

def parse (secret : String) (token : String) (now : Instant) : Except TokenFault Claims :=
  match verify secret token.toList with
  | .error fault => .error fault
  | .ok claims => if claims.isExpiredAt now then .error (.expired claims) else .ok claims

end Token
end Gatehouse
