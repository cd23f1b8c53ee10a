import Gatehouse.Proofs.Json.Record
import Gatehouse.Proofs.Text.Base64

/-!
Signed tokens. `Token.Carries` says what it is for a token to carry claims under a secret: three
parts, of which the first names a keyed digest, the last is that digest of the other two, and the
second holds the claims. A token is read as carrying claims exactly if it does
(`verify_eq_ok_iff`), and an issued token carries the claims it was issued for (`carries_issue`).
-/

namespace Gatehouse

open Text (utf8)

/-! ## Claims in their written form -/

namespace Claims

/-- The times of the claims fit into 64 bits. -/
def InRange (c : Claims) : Prop :=
  (-9223372036854775808 ≤ c.issuedAt ∧ c.issuedAt ≤ 9223372036854775807) ∧
    ∀ t, c.expiresAt = some t → -9223372036854775808 ≤ t ∧ t ≤ 9223372036854775807

theorem read_kind (k : KeyKind) :
    Json.Read.optional KeyKind.read k.toJson.node = .ok (some k) := by
  cases k <;> rfl

open Json.Read in
/-- Written claims are read back: every member fills its slot, and a slot left empty gets the value
whose member is left out. -/
theorem read_toJson {c : Claims} (h : c.InRange) : read c.toJson.node = .ok c := by
  obtain ⟨issuer, subject, issuedAt, expiresAt, id, kind⟩ := c
  have hexp : ∀ t, expiresAt = some t →
      Json.Read.optional signed64 (Json.integer t).node = .ok (some t) := fun t ht =>
    optional_eq_some_iff.mpr ⟨nofun, signed64_eq_ok_iff.mpr ⟨rfl, h.2 t ht⟩⟩
  have hkind : ∀ k, kind = some k →
      Json.Read.optional KeyKind.read (KeyKind.toJson k).node = .ok (some k) := fun k _ =>
    read_kind k
  have hfills : Fills fields (Json.memberNodes (
      Key.textMember "iss" issuer ++ Key.textMember "sub" subject ++
      [("iat", .integer issuedAt)] ++ Key.optionalMember "exp" Json.integer expiresAt ++
      Key.textMember "jti" id ++ Key.optionalMember "type" KeyKind.toJson kind)) {}
      ⟨if issuer.isEmpty then none else some issuer,
        if subject.isEmpty then none else some subject, some issuedAt, expiresAt.map some,
        if id.isEmpty then none else some id, kind.map some⟩ := by
    rw [← List.append_nil (Key.optionalMember "type" _ _)]
    simp only [Json.memberNodes_append, List.append_assoc]
    exact .textMember rfl rfl (.textMember rfl rfl (.slot rfl (signed64_eq_ok_iff.mpr ⟨rfl, h.1⟩)
      (.optionalMember rfl rfl hexp (.textMember rfl rfl
        (.optionalMember rfl rfl hkind (.none _ _))))))
  refine (record_of_fills (by decide) hfills).trans ?_
  show Except.ok (Claims.mk _ _ _ _ _ _) = _
  simp only [getD_textMember, getD_map_some]

/-- The names of the written members. -/
theorem mem_names_toJson {c : Claims} {name : String} {ms : List (String × Json)}
    (hms : c.toJson = .object ms) (h : name ∈ ms.map Prod.fst) :
    name ∈ ["iss", "sub", "iat", "exp", "jti", "type"] := by
  obtain ⟨issuer, subject, issuedAt, expiresAt, id, kind⟩ := c
  cases hms
  simp only [Key.textMember, List.map_append, List.mem_append] at h
  rcases h with ((((h | h) | h) | h) | h) | h
  · split at h <;> simp_all
  · split at h <;> simp_all
  · simp_all
  · cases expiresAt <;> simp_all [Key.optionalMember]
  · split at h <;> simp_all
  · cases kind <;> simp_all [Key.optionalMember]

end Claims

namespace Token

/-- A written text has no member of another name, hence nothing that a registered claim could get
wrong. -/
theorem registeredInOrder_toJson (c : Claims) : registeredInOrder c.toJson.node = true := by
  obtain ⟨ms, hms⟩ : ∃ ms, c.toJson = .object ms := ⟨_, rfl⟩
  have hnone : ∀ name, name ∉ ["iss", "sub", "iat", "exp", "jti", "type"] →
      valuesOf name (Json.memberNodes ms) = [] := by
    intro name hname
    rw [valuesOf, List.filterMap_eq_nil_iff]
    intro m hm
    obtain ⟨key, hkey, hm⟩ := Json.Read.mem_memberNodes hm
    rw [hm, if_neg]
    rintro ⟨⟩
    exact hname (Claims.mem_names_toJson hms hkey)
  rw [hms, Json.node]
  simp [registeredInOrder, hnone "nbf" (by decide), hnone "aud" (by decide)]

/-- Written claims are read back from their bytes. -/
theorem readClaims_write {c : Claims} (h : c.InRange) :
    readClaims (utf8 c.toJson.write) = some c := by
  have hread : Json.Read.document Claims.read ⟨c.toJson.node, true⟩ = .ok c := by
    rw [Json.Read.document, Claims.read_toJson h]
    rfl
  rw [readClaims, Json.ofBytes_write]
  simp [hread, registeredInOrder_toJson]

theorem decode_part (cs : List Char) : Text.Base64.decode (part (bytesOf cs)) = some (utf8 cs) := by
  rw [part, Text.Base64.decode_encode, Text.bytesOf_eq]

theorem algorithmOf_issuedHeader :
    algorithmOf (part (bytesOf issuedHeader.write)) = some (.hmac Digest.sha256) := by
  rw [algorithmOf, decode_part]
  simp only [Json.ofBytes_write]
  rfl

/-! ## What a token carries -/

/-- The token is signed under the secret, and these are its claims. Whether they have expired is
another matter. -/
def Carries (secret token : String) (claims : Claims) : Prop :=
  ∃ header payload signature f,
    token.toList = signedText header payload ++ '.' :: signature ∧
    '.' ∉ header ∧ '.' ∉ payload ∧ '.' ∉ signature ∧
    algorithmOf header = some (.hmac f) ∧
    Text.Base64.decode signature = some (mac f secret (signedText header payload)) ∧
    (Text.Base64.decode payload).bind readClaims = some claims

theorem splitOn_parts {header payload signature : List Char} (hh : '.' ∉ header)
    (hp : '.' ∉ payload) (hs : '.' ∉ signature) :
    Text.splitOn '.' (signedText header payload ++ '.' :: signature) =
      [header, payload, signature] := by
  rw [signedText, List.append_assoc, List.cons_append, Text.splitOn_append_sep _ hh,
    Text.splitOn_append_sep _ hp, Text.splitOn_of_not_mem hs]

/-- The token is three parts with dots between them. -/
def Parts (token : String) (header payload signature : List Char) : Prop :=
  token.toList = signedText header payload ++ '.' :: signature ∧
    '.' ∉ header ∧ '.' ∉ payload ∧ '.' ∉ signature

theorem parts_iff_splitOn {token : String} {header payload signature : List Char} :
    Parts token header payload signature ↔
      Text.splitOn '.' token.toList = [header, payload, signature] := by
  constructor
  · rintro ⟨htoken, hh, hp, hs⟩
    rw [htoken, splitOn_parts hh hp hs]
  · intro hsplit
    have hdots : ∀ piece ∈ [header, payload, signature], '.' ∉ piece := fun piece hm =>
      Text.not_mem_of_mem_splitOn '.' _ piece (hsplit ▸ hm)
    refine ⟨?_, hdots _ (by simp), hdots _ (by simp), hdots _ (by simp)⟩
    rw [← Text.joinWith_splitOn '.' token.toList, hsplit]
    simp [Text.joinWith, signedText]

theorem Parts.unique {token : String} {header payload signature : List Char}
    {header' payload' signature' : List Char}
    (h : Parts token header payload signature) (h' : Parts token header' payload' signature') :
    header = header' ∧ payload = payload' ∧ signature = signature' := by
  have hsplit := (parts_iff_splitOn.mp h).symm.trans (parts_iff_splitOn.mp h')
  simpa using hsplit

theorem verify_of_carries {secret token : String} {claims : Claims}
    (h : Carries secret token claims) : verify secret token.toList = .ok claims := by
  obtain ⟨header, payload, signature, f, htoken, hh, hp, hs, hf, hsig, hclaims⟩ := h
  rw [verify, htoken, splitOn_parts hh hp hs]
  simp only [hf, hsig, hclaims, if_true]

theorem carries_of_verify {secret token : String} {claims : Claims}
    (h : verify secret token.toList = .ok claims) : Carries secret token claims := by
  rw [verify] at h
  split at h
  · next header payload signature hsplit =>
    obtain ⟨htoken, hheader, hpayload, hsignature⟩ := parts_iff_splitOn.mpr hsplit
    split at h
    · cases h
    · cases h
    · next f hf =>
      split at h
      · cases h
      · next bytes hbytes =>
        split at h
        · next hmac =>
          split at h
          · next c hc =>
            cases h
            exact ⟨header, payload, signature, f, htoken, hheader, hpayload, hsignature, hf,
              hmac ▸ hbytes, hc⟩
          · cases h
        · cases h
  · cases h

/-- The check of a token comes out with the claims that the token carries. -/
theorem verify_eq_ok_iff {secret token : String} {claims : Claims} :
    verify secret token.toList = .ok claims ↔ Carries secret token claims :=
  ⟨carries_of_verify, verify_of_carries⟩

/-- A token shows one set of claims at most, whatever secret it is signed under. -/
theorem Carries.unique {secret secret' token : String} {c d : Claims}
    (hc : Carries secret token c) (hd : Carries secret' token d) : c = d := by
  obtain ⟨header, payload, signature, _, htoken, hh, hp, hs, -, -, hclaims⟩ := hc
  obtain ⟨header', payload', signature', _, htoken', hh', hp', hs', -, -, hclaims'⟩ := hd
  have hparts : Parts token header payload signature := ⟨htoken, hh, hp, hs⟩
  obtain ⟨rfl, rfl, rfl⟩ := hparts.unique ⟨htoken', hh', hp', hs'⟩
  rw [hclaims] at hclaims'
  exact Option.some.inj hclaims'

/-- **An issued token carries the claims that it was issued for.** -/
theorem carries_issue (secret : String) {claims : Claims} (h : claims.InRange) :
    Carries secret (issue secret claims) claims := by
  refine ⟨part (bytesOf issuedHeader.write), part (bytesOf claims.toJson.write), _,
    Digest.sha256, String.toList_ofList, Text.Base64.dot_not_mem_encode _,
    Text.Base64.dot_not_mem_encode _, Text.Base64.dot_not_mem_encode _, algorithmOf_issuedHeader,
    Text.Base64.decode_encode _, ?_⟩
  rw [decode_part, Option.bind_some]
  exact readClaims_write h

/-! ## Checking at a time -/

/-- The signature is checked without a look at the clock. -/
theorem verify_ne_expired (secret : String) (token : List Char) (claims : Claims) :
    verify secret token ≠ .error (.expired claims) := by
  rw [verify]
  repeat' split
  all_goals simp

theorem parse_of_carries {secret token : String} {claims : Claims}
    (h : Carries secret token claims) (now : Instant) :
    parse secret token now =
      if claims.isExpiredAt now then .error (.expired claims) else .ok claims := by
  rw [parse, verify_of_carries h]

theorem parse_eq_ok_iff {secret token : String} {now : Instant} {claims : Claims} :
    parse secret token now = .ok claims ↔
      Carries secret token claims ∧ claims.isExpiredAt now = false := by
  constructor
  · intro h
    rw [parse] at h
    split at h
    · cases h
    · next c hc =>
      split at h
      · cases h
      · next hlive =>
        cases h
        exact ⟨carries_of_verify hc, by simpa using hlive⟩
  · rintro ⟨h, hlive⟩
    rw [parse_of_carries h, if_neg (by simp [hlive])]

theorem parse_eq_expired_iff {secret token : String} {now : Instant} {claims : Claims} :
    parse secret token now = .error (.expired claims) ↔
      Carries secret token claims ∧ claims.isExpiredAt now = true := by
  constructor
  · intro h
    rw [parse] at h
    split at h
    · next fault hfault =>
      cases h
      exact absurd hfault (verify_ne_expired secret token.toList claims)
    · next c hc =>
      split at h
      · next hexpired =>
        cases h
        exact ⟨carries_of_verify hc, hexpired⟩
      · cases h
  · rintro ⟨h, hexpired⟩
    rw [parse_of_carries h, if_pos hexpired]

/-! ## Issued tokens -/

/-- **Tokens are read back as they were issued.** Whatever is in the claims, they come back whole:
as valid claims up to the second of their expiry, and as expired ones from it on. So different
claims have different tokens, even under different secrets. -/
theorem parse_issue (secret : String) {claims : Claims} (h : claims.InRange) :
    (∀ now, parse secret (issue secret claims) now =
      match claims.expiresAt with
      | none => .ok claims
      | some t => if now.seconds < t then .ok claims else .error (.expired claims)) ∧
    ∀ (secret' : String) (other : Claims), other.InRange → other ≠ claims →
      issue secret' other ≠ issue secret claims := by
  have hcarries := carries_issue secret h
  refine ⟨fun now => ?_, fun secret' other hother hne heq => ?_⟩
  · rw [parse_of_carries hcarries, Claims.isExpiredAt]
    cases claims.expiresAt with
    | none => rfl
    | some t =>
      by_cases hlive : now.seconds < t
      · have hnot : ¬ t ≤ now.seconds := by omega
        simp [hlive, hnot]
      · have hle : t ≤ now.seconds := by omega
        simp [hlive, hle]
  · have hother' := carries_issue secret' hother
    rw [heq] at hother'
    exact hne (hother'.unique hcarries)

/-- Claims with everything in them that is written with an escape, and with times before 1970. -/
theorem parse_issue_before_1970 :
    let claims : Claims :=
      { subject := "\"\\\n\x01é😀", issuedAt := -9223372036854775808, expiresAt := some (-1) }
    claims.InRange ∧
      parse "" (issue "" claims) ⟨-2, 999999999, by decide⟩ = .ok claims ∧
      parse "" (issue "" claims) ⟨-1, 0, by decide⟩ = .error (.expired claims) ∧
      issue "" { claims with kind := some .user } ≠ issue "" claims := by
  intro claims
  have h : claims.InRange := ⟨by decide, by decide⟩
  obtain ⟨hparse, hissue⟩ := parse_issue "" h
  refine ⟨h, ?_, ?_, hissue "" _ ⟨h.1, h.2⟩ (by decide)⟩
  · rw [hparse]
    rfl
  · rw [hparse]
    rfl

end Token
end Gatehouse
