import Gatehouse.Proofs.Json.Lenient
import Gatehouse.Proofs.Keys.Header
import Gatehouse.Proofs.Keys.Signed

/-!
What is to be said of a token at a time. `Token.Verdict` puts it as a table: the token is taken apart,
its header names an algorithm, the signature is the keyed digest of the other two parts, the payload
holds claims, and these have expired or not; and for each way to fall short of that there is the
fault that is reported. The check of tokens comes to these verdicts and no others
(`accepts_signed_tokens_only`).
-/

namespace Gatehouse.Token

variable {secret token : String} {header payload signature : List Char} {now : Instant}
  {claims : Claims} {doc : Json.Document} {cs : List Char}

/-! ## The second reading of a payload -/

/-- A value that is no hindrance as the start of validity, be it one or not. It is wanted as a
number, and nothing is taken out of lists and objects. -/
inductive PassesAsStart : Json.Node → Prop where
  | plain {node : Json.Node} : node.Passable 0 → PassesAsStart node
  | noItems {closed : Bool} : PassesAsStart (.array [] closed)
  | noMembers {closed : Bool} : PassesAsStart (.object [] closed)

/-- The registered claims can be read from a payload of claims. The audience is kept whole before it
is looked at: lists and objects are opened 127 deep, and the payload is the first of them. -/
inductive RegisteredInOrder : Json.Node → Prop where
  | object {members : List (Option String × Json.Node)} {closed : Bool} :
      (members.map Prod.fst).count (some "nbf") ≤ 1 →
      (members.map Prod.fst).count (some "aud") ≤ 1 →
      (∀ node, (some "nbf", node) ∈ members → PassesAsStart node) →
      (∀ node, (some "aud", node) ∈ members → node.Passable 126) →
      RegisteredInOrder (.object members closed)
  /-- Expiry, start of validity, subject, issuer and audience, whatever stands in their places. -/
  | array {items : List Json.Node} {closed : Bool} : items.length = 5 →
      RegisteredInOrder (.array items closed)

section Registered

variable {node : Json.Node} {name : String} {members : List (Option String × Json.Node)}

theorem passesAsStart_iff : node.numberHalt? ≠ some .within ↔ PassesAsStart node := by
  constructor
  · intro h
    unfold Json.Node.numberHalt? at h
    split at h
    · next items _ =>
      cases items with
      | nil => exact .noItems
      | cons => exact absurd rfl h
    · next members _ =>
      cases members with
      | nil => exact .noMembers
      | cons => exact absurd rfl h
    · exact .plain (Json.Node.halt?_ne_within_iff.mp h)
  · intro h
    cases h with
    | plain h =>
      have hhalt := Json.Node.halt?_ne_within_iff.mpr h
      cases node with
      | array | object => exact absurd rfl hhalt
      | _ => exact hhalt
    | noItems | noMembers => exact nofun

theorem mem_valuesOf : node ∈ valuesOf name members ↔ (some name, node) ∈ members := by
  simp only [valuesOf, List.mem_filterMap, Option.ite_none_right_eq_some, Option.some.injEq]
  constructor
  · rintro ⟨⟨_, _⟩, hm, rfl, rfl⟩
    exact hm
  · intro hm
    exact ⟨_, hm, rfl, rfl⟩

theorem length_valuesOf :
    (valuesOf name members).length = (members.map Prod.fst).count (some name) := by
  induction members with
  | nil => rfl
  | cons m members ih =>
    rw [valuesOf, List.filterMap_cons, ← valuesOf, List.map_cons, List.count_cons]
    by_cases h : m.1 = some name <;> simp [h, ih]

theorem registeredInOrder_iff : registeredInOrder node = true ↔ RegisteredInOrder node := by
  cases node with
  | object members closed =>
    simp only [registeredInOrder, Bool.and_eq_true, decide_eq_true_eq, List.all_eq_true,
      length_valuesOf, mem_valuesOf, passesAsStart_iff, Json.Node.halt?_ne_within_iff]
    constructor
    · rintro ⟨⟨⟨hstarts, hstart⟩, haudiences⟩, haudience⟩
      exact .object hstarts haudiences hstart haudience
    · rintro ⟨hstarts, haudiences, hstart, haudience⟩
      exact ⟨⟨⟨hstarts, hstart⟩, haudiences⟩, haudience⟩
  | array items closed =>
    rw [registeredInOrder, decide_eq_true_iff]
    refine ⟨.array, fun h => ?_⟩
    cases h with
    | array hlength => exact hlength
  | _ => exact ⟨fun h => (by cases h), fun h => (by cases h)⟩

end Registered

/-! ## Verdicts -/

/-- The part is the base64 text of some bytes, and this is the JSON text in them. -/
def Spells (cs : List Char) (doc : Json.Document) : Prop :=
  ∃ bytes, cs = part bytes ∧ doc = .ofBytes bytes

/-- The first part is a header that names this algorithm. -/
def Heads (header : List Char) (alg : String) : Prop :=
  ∃ doc, Spells header doc ∧ doc.ended = true ∧ IsHeader doc.root alg

/-- The last part is the keyed digest of the other two, under the secret and with the algorithm
that the header names. -/
def Signed (secret : String) (header payload signature : List Char) : Prop :=
  ∃ alg f, Heads header alg ∧ (alg, f) ∈ keyedAlgorithms ∧
    signature = part (mac f secret (signedText header payload))

/-- The second part holds these claims, and the registered claims in it are in order. -/
def Holds (payload : List Char) (claims : Claims) : Prop :=
  ∃ doc, Spells payload doc ∧ Json.Read.document Claims.read doc = .ok claims ∧
    RegisteredInOrder doc.root

theorem decode_eq_some_iff_part {bytes : List UInt8} :
    Text.Base64.decode cs = some bytes ↔ cs = part bytes := Text.Base64.decode_eq_some_iff

theorem algorithmOf_eq_some_iff {a : Algorithm} : algorithmOf header = some a ↔
    ∃ alg, Heads header alg ∧ algorithms.lookup alg = some a := by
  unfold algorithmOf
  constructor
  · intro h
    split at h
    · cases h
    · next bytes hbytes =>
      split at h
      · next b hread =>
        cases h
        obtain ⟨hended, hroot⟩ := Json.Read.document_eq_ok_iff.mp hread
        obtain ⟨alg, halg, hlookup⟩ := readHeader_eq_ok_iff.mp hroot
        exact ⟨alg, ⟨_, ⟨bytes, decode_eq_some_iff_part.mp hbytes, rfl⟩, hended, halg⟩, hlookup⟩
      · cases h
  · rintro ⟨alg, ⟨doc, ⟨bytes, hbytes, rfl⟩, hended, halg⟩, hlookup⟩
    have hread := Json.Read.document_eq_ok_iff.mpr ⟨hended, readHeader_eq_ok_iff.mpr ⟨alg, halg, hlookup⟩⟩
    simp only [decode_eq_some_iff_part.mpr hbytes, hread]

theorem algorithmOf_eq_hmac_iff {f : Digest.HashFunction} :
    algorithmOf header = some (.hmac f) ↔ ∃ alg, Heads header alg ∧ (alg, f) ∈ keyedAlgorithms := by
  simp only [algorithmOf_eq_some_iff, lookup_eq_hmac_iff]

theorem signed_iff : Signed secret header payload signature ↔
    ∃ f, algorithmOf header = some (.hmac f) ∧
      signature = part (mac f secret (signedText header payload)) := by
  simp only [algorithmOf_eq_hmac_iff]
  constructor
  · rintro ⟨alg, f, halg, hf, hsig⟩
    exact ⟨f, ⟨alg, halg, hf⟩, hsig⟩
  · rintro ⟨f, ⟨alg, halg, hf⟩, hsig⟩
    exact ⟨alg, f, halg, hf, hsig⟩

theorem holds_iff :
    Holds payload claims ↔ (Text.Base64.decode payload).bind readClaims = some claims := by
  unfold Holds readClaims
  simp only [← registeredInOrder_iff]
  constructor
  · rintro ⟨doc, ⟨bytes, hbytes, rfl⟩, hread, horder⟩
    rw [decode_eq_some_iff_part.mpr hbytes, Option.bind_some]
    simp only [hread, horder, if_true]
  · intro h
    obtain ⟨bytes, hbytes, h⟩ := Option.bind_eq_some_iff.mp h
    split at h
    · next c hread =>
      split at h
      · next horder =>
        cases h
        exact ⟨_, ⟨bytes, decode_eq_some_iff_part.mp hbytes, rfl⟩, hread, horder⟩
      · cases h
    · cases h

theorem carries_iff : Carries secret token claims ↔ ∃ header payload signature,
    Parts token header payload signature ∧ Signed secret header payload signature ∧
      Holds payload claims := by
  unfold Carries
  simp only [signed_iff, holds_iff, decode_eq_some_iff_part]
  constructor
  · rintro ⟨header, payload, signature, f, htoken, hh, hp, hs, hf, hsig, hclaims⟩
    exact ⟨header, payload, signature, ⟨htoken, hh, hp, hs⟩, ⟨f, hf, hsig⟩, hclaims⟩
  · rintro ⟨header, payload, signature, ⟨htoken, hh, hp, hs⟩, ⟨f, hf, hsig⟩, hclaims⟩
    exact ⟨header, payload, signature, f, htoken, hh, hp, hs, hf, hsig, hclaims⟩

/-! ## The check -/

/-- Two parts have one signature. -/
theorem Signed.unique {signature' : List Char} (h : Signed secret header payload signature)
    (h' : Signed secret header payload signature') : signature = signature' := by
  obtain ⟨f, hf, rfl⟩ := signed_iff.mp h
  obtain ⟨f', hf', rfl⟩ := signed_iff.mp h'
  rw [hf] at hf'
  cases hf'
  rfl

end Gatehouse.Token
