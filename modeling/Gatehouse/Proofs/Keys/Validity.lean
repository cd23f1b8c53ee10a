import Gatehouse.Proofs.Keys.Lifecycle
import Gatehouse.Proofs.Time.Addition

/-!
How long a session key is good. Its expiry is the start of the second in which its issue time and its
span end (`KeyService.sessionKey_eq`). The token keeps whole seconds only, and the
clock is compared in whole seconds; as the expiry is a whole second, that comes to the same as a
comparison to the nanosecond (`Instant.lt_iff_of_whole`).
-/

namespace Gatehouse

/-- Before a whole second is in an earlier second. -/
theorem Instant.lt_iff_of_whole {now t : Instant} (ht : t.nanos = 0) :
    now < t ↔ now.seconds < t.seconds := by
  rw [← not_le_iff, le_def, ht]
  omega

/-! ## Session keys -/

namespace KeyService

variable {s : KeyService} {now expiry : Instant} {subject identity : String} {request : Key}

/-- The session key that a request leads to. -/
def sessionKeyOf (s : KeyService) (subject : String) (request : Key) (expiry : Instant) : Key :=
  { request with
    id := ""
    issuer := s.issuerName
    expiresAt := some expiry
    secret := Token.issue s.secret (s.sessionClaims subject request expiry) }

theorem sessionKey_eq {span : Span} (hnanos : request.issuedAt.nanos < 1000000000)
    (hend : (request.issuedAt.endSecond span).InCalendar) :
    s.sessionKey subject span request =
      .record (.issued subject "" request.kind)
        (.done (.ok (s.sessionKeyOf subject request (request.issuedAt.endSecond span)))) := by
  obtain ⟨later, hlater, hfloor⟩ := Instant.add?_eq hnanos hend
  unfold sessionKey
  rw [hlater]
  simp only [hfloor]
  rfl

/-- The token of a session key carries the claims of the session. -/
theorem carries_sessionKeyOf (hissuedAt : request.issuedAt.InCalendar)
    (hexpiry : expiry.InCalendar) :
    Token.Carries s.secret (s.sessionKeyOf subject request expiry).secret
      (s.sessionClaims subject request expiry) := by
  refine Token.carries_issue s.secret ⟨hissuedAt.in64, ?_⟩
  intro t ht
  cases ht
  exact hexpiry.in64

end KeyService

/-- A session key: not stored, with its issuer and its expiry. Any service with the secret takes it
for a key of the identity until the expiry, and for an expired one from then on. The clock, the
other settings of the service and what its store holds or answers do not matter. -/
def Key.IsSession (secret issuer identity : String) (expiry : Instant) (key : Key) : Prop :=
  key.id = "" ∧ key.issuer = issuer ∧ key.expiresAt = some expiry ∧
    ∀ (s : KeyService) (now : Instant) (b : Plan.Backend), s.secret = secret →
      ((s.identify now key.secret).run b).1 =
        some (if now < expiry then .ok identity else .error (.unauthorized .expired))

namespace KeyService

variable {s : KeyService} {now expiry : Instant} {identity : String} {request : Key}

/-- A session key identifies up to the second of its expiry. -/
theorem run_identify_sessionKeyOf (subject : String) (hissuedAt : request.issuedAt.InCalendar)
    (hexpiry : expiry.InCalendar)
    (hkind : request.kind = .login ∧ identity = subject ∨
      request.kind = .reset ∧ identity = s.issuerName) (hidentity : identity ≠ "")
    (s' : KeyService) (now : Instant) (b : Plan.Backend) (hsecret : s'.secret = s.secret) :
    ((s'.identify now (s.sessionKeyOf subject request expiry).secret).run b).1 =
      some (if now.seconds < expiry.seconds then .ok identity
        else .error (.unauthorized .expired)) := by
  have hcarries : Token.Carries s'.secret (s.sessionKeyOf subject request expiry).secret
      (s.sessionClaims subject request expiry) := hsecret ▸ carries_sessionKeyOf hissuedAt hexpiry
  have hdue : (s.sessionClaims subject request expiry).isExpiredAt now =
      decide (expiry.seconds ≤ now.seconds) := rfl
  have hblank : ¬ identity.isEmpty = true := fun he => hidentity (String.isEmpty_iff.mp he)
  unfold identify
  rw [Token.parse_of_carries hcarries, hdue]
  by_cases hlive : now.seconds < expiry.seconds
  · rw [if_pos hlive, if_neg (by simpa using hlive)]
    rcases hkind with ⟨hkind, rfl⟩ | ⟨hkind, rfl⟩
    · simp only [identifyClaims, sessionClaims, hkind, if_neg hblank]
      rfl
    · simp only [identifyClaims, sessionClaims, hkind, if_neg hblank]
      rfl
  · rw [if_neg hlive, if_pos (by simpa using hlive)]
    have huser : (s.sessionClaims subject request expiry).kind ≠ some .user := by
      rcases hkind with ⟨hkind, -⟩ | ⟨hkind, -⟩ <;> simp [sessionClaims, hkind]
    simp only [if_neg huser]
    rfl

theorem isSession_sessionKeyOf (subject : String) (hissuedAt : request.issuedAt.InCalendar)
    (hexpiry : expiry.InCalendar) (hwhole : expiry.nanos = 0)
    (hkind : request.kind = .login ∧ identity = subject ∨
      request.kind = .reset ∧ identity = s.issuerName) (hidentity : identity ≠ "") :
    (s.sessionKeyOf subject request expiry).IsSession s.secret s.issuerName identity expiry := by
  refine ⟨rfl, rfl, rfl, fun s' now b hsecret => ?_⟩
  rw [run_identify_sessionKeyOf subject hissuedAt hexpiry hkind hidentity s' now b hsecret]
  simp only [Instant.lt_iff_of_whole hwhole]

/-- **The validity of session keys, to the nanosecond.** The issue time is a date with a sub-second
part and outside leap seconds, and the span from it on ends within the calendar. Then a login key is
issued for any identity, and a reset key to any holder of a login key; it expires at the start of
the second in which the span ends; and before that instant, but not from it on, it identifies the
holder of the login key or, if it is a reset key, the issuer. -/
theorem session_key_window (s : KeyService) (hname : s.issuerName ≠ "") {request : Key}
    (hissuedAt : request.issuedAt.InCalendar) (hpart : request.issuedAt.nanos ≠ 0)
    (hleap : request.issuedAt.nanos < 1000000000) :
    (∀ identity, identity ≠ "" → request.kind = .login →
      (request.issuedAt.endSecond s.loginSpan).InCalendar →
        ∃ key, (∀ now b, ((s.issue now identity request).run b).1 = some (.ok key)) ∧
          key.IsSession s.secret s.issuerName identity (request.issuedAt.endSecond s.loginSpan)) ∧
    ∀ holder, request.kind = .reset → (request.issuedAt.endSecond s.resetSpan).InCalendar →
      ∃ key, (∀ now token b, IsLogin s.secret now token holder →
          ((s.issue now token request).run b).1 = some (.ok key)) ∧
        key.IsSession s.secret s.issuerName s.issuerName
          (request.issuedAt.endSecond s.resetSpan) := by
  refine ⟨?_, ?_⟩
  · intro identity hidentity hkind hend
    refine ⟨_, fun now b => ?_, isSession_sessionKeyOf identity hissuedAt hend rfl
      (.inl ⟨hkind, rfl⟩) hidentity⟩
    have hblank : ¬ identity.isEmpty = true := fun he => hidentity (String.isEmpty_iff.mp he)
    simp only [issue, if_neg hpart, hkind, if_neg hblank, sessionKey_eq hleap hend]
    rfl
  · intro holder hkind hend
    refine ⟨_, fun now token b hlogin => ?_, isSession_sessionKeyOf holder hissuedAt hend
      rfl (.inr ⟨hkind, rfl⟩) hname⟩
    simp only [issue, if_neg hpart, hkind, login_of_isLogin "issue reset key" hlogin,
      sessionKey_eq hleap hend]
    rfl

/-- A key issued two seconds before 1970 for a little less than two seconds: it is good up to the
last nanosecond before 1970, and for a service of another name too. -/
theorem session_ends_with_1969 :
    let s : KeyService := ⟨"secret", "gate", ⟨1, 400000000⟩, ⟨0, 1⟩⟩
    let other : KeyService := .standard "secret"
    let request : Key := ⟨"", .login, "", "", ⟨-2, 700000000, by decide⟩, none⟩
    let failing : Plan.Backend :=
      { vault := .empty, outage := ⟨some .conflict, some .conflict, some .conflict⟩, ids := [] }
    ∃ key, ((s.issue ⟨0, 0, by decide⟩ "alice" request).run failing).1 = some (.ok key) ∧
      key.expiresAt = some ⟨0, 0, by decide⟩ ∧
      ((other.identify ⟨-1, 999999999, by decide⟩ key.secret).run failing).1 =
        some (.ok "alice") ∧
      ((other.identify ⟨0, 0, by decide⟩ key.secret).run failing).1 =
        some (.error (.unauthorized .expired)) := by
  intro s other request failing
  obtain ⟨key, hissue, -, -, hexpiry, hidentify⟩ :=
    (session_key_window s (by decide) (show request.issuedAt.InCalendar by decide) (by decide)
      (by decide)).1 "alice" (by decide) rfl (by decide)
  have hend : request.issuedAt.endSecond s.loginSpan = ⟨0, 0, by decide⟩ := by decide
  rw [hend] at hexpiry hidentify
  exact ⟨key, hissue _ _, hexpiry, hidentify other _ failing rfl, hidentify other _ failing rfl⟩

end KeyService
end Gatehouse
