import Gatehouse.Config.Settings
import Gatehouse.Proofs.Keys.Validity

/-!
Session keys of a service that was set up from settings. Whoever is entitled to one gets it by way
of the sum of its issue time and its span (`KeyService.issue_of_issuedFor`); nobody else does
(`KeyService.issue_session_cases`). Acceptable settings do not settle what that sum is like. A span
that does not outlast the second of issue leads to a key that is never good, and one that ends
after the calendar to a crash; both happen under no other circumstances.
-/

namespace Gatehouse

open KeyService (Result)

namespace KeyService

variable {s : KeyService} {now : Instant} {issuer subject identity : String} {request key : Key}
  {b : Plan.Backend}

/-- How long a key of a kind lasts that is not stored. -/
def spanOf (s : KeyService) (kind : KeyKind) : Span :=
  if kind = .login then s.loginSpan else s.resetSpan

/-! ## Issuing a session key -/

theorem issue_of_issuedFor (hkind : request.kind ≠ .user) (hpart : request.issuedAt.nanos ≠ 0)
    (hissued : IssuedFor s.secret now issuer request.kind subject) (hne : subject ≠ "") :
    s.issue now issuer request = s.sessionKey subject (s.spanOf request.kind) request := by
  rw [issue, if_neg hpart]
  cases hk : request.kind with
  | login =>
    obtain rfl : subject = issuer := by simpa [IssuedFor, hk] using hissued
    simp only [if_neg (mt String.isEmpty_iff.mp hne), spanOf, if_true]
  | reset =>
    have hlogin : IsLogin s.secret now issuer subject := by simpa [IssuedFor, hk] using hissued
    simp only [login_of_isLogin "issue reset key" hlogin, spanOf]
    rfl
  | user => exact absurd hk hkind

/-- A request for a session key is refused, whatever the backend, or it comes down to a sum. -/
theorem issue_session_cases (s : KeyService) (now : Instant) (issuer : String)
    (hkind : request.kind ≠ .user) :
    (∃ e, ∀ b, ((s.issue now issuer request).run b).1 = some (.error e)) ∨
      request.issuedAt.nanos ≠ 0 ∧
        ∃ subject, subject ≠ "" ∧ IssuedFor s.secret now issuer request.kind subject ∧
          s.issue now issuer request =
            s.sessionKey subject (s.spanOf request.kind) request := by
  by_cases hpart : request.issuedAt.nanos = 0
  · exact .inl ⟨.invalidIssueTime, fun b => by rw [issue, if_pos hpart]; rfl⟩
  by_cases hissued : ∃ subject, subject ≠ "" ∧ IssuedFor s.secret now issuer request.kind subject
  · obtain ⟨subject, hne, hissued⟩ := hissued
    exact .inr ⟨hpart, subject, hne, hissued, issue_of_issuedFor hkind hpart hissued hne⟩
  refine .inl ?_
  cases hk : request.kind with
  | login =>
    by_cases hblank : issuer.isEmpty = true
    · exact ⟨_, fun b => by simp only [issue, if_neg hpart, hk, if_pos hblank]; rfl⟩
    · exact absurd ⟨issuer, mt String.isEmpty_iff.mpr hblank, by simp [IssuedFor, hk]⟩ hissued
  | reset =>
    have hnot : ∀ identity, ¬ IsLogin s.secret now issuer identity := by
      intro identity hlogin
      have hne : identity ≠ "" := by
        obtain ⟨-, -, -, -, -, hne⟩ := hlogin
        exact hne
      exact hissued ⟨identity, hne, by simpa [IssuedFor, hk] using hlogin⟩
    obtain ⟨reason, hdeny⟩ := login_of_not_isLogin "issue reset key" hnot
    exact ⟨_, fun b => by simp only [issue, if_neg hpart, hk, hdeny]; rfl⟩
  | user => exact absurd hk hkind

theorem run_sessionKey (span : Span) :
    ((s.sessionKey subject span request).run b).1 =
      (request.issuedAt.add? span).map fun t => .ok (s.sessionKeyOf subject request t.floor) := by
  unfold sessionKey
  cases request.issuedAt.add? span with
  | none => rfl
  | some t => rfl

end KeyService

/-! ## Keys at the instant of their issue -/

namespace Key

/-- The key expires after its issue, and at that instant it identifies. -/
def GoodFromIssue (s : KeyService) (identity : String) (key : Key) : Prop :=
  (∃ x, key.expiresAt = some x ∧ key.issuedAt < x) ∧
    ∀ b, ((s.identify key.issuedAt key.secret).run b).1 = some (.ok identity)

/-- The key has expired at its issue already, and is refused. -/
def ExpiredAtIssue (s : KeyService) (key : Key) : Prop :=
  (∃ x, key.expiresAt = some x ∧ x ≤ key.issuedAt) ∧
    ∀ b, ((s.identify key.issuedAt key.secret).run b).1 =
      some (.error (.unauthorized .expired))

end Key

namespace KeyService

variable {s : KeyService} {now later : Instant} {issuer subject identity : String}
  {request key : Key} {span : Span}

/-- The expiry is cut to the second. So a key is good from its issue on if its span outlasts the
second of issue, and has expired by then if not. -/
theorem good_or_expired_at_issue (hissuedAt : request.issuedAt.InCalendar)
    (hadd : request.issuedAt.add? span = some later)
    (hkind : request.kind = .login ∧ identity = subject ∨
      request.kind = .reset ∧ identity = s.issuerName) (hidentity : identity ≠ "") :
    (span.Outlasts request.issuedAt →
        (s.sessionKeyOf subject request later.floor).GoodFromIssue s identity) ∧
      (¬ span.Outlasts request.issuedAt →
        (s.sessionKeyOf subject request later.floor).ExpiredAtIssue s) := by
  have hexpiry : later.floor.InCalendar :=
    show later.InCalendar from Instant.inCalendar_of_add? hadd
  have hlate : request.issuedAt.seconds < later.floor.seconds ↔ span.Outlasts request.issuedAt := by
    show request.issuedAt.seconds < later.seconds ↔ _
    rw [Instant.seconds_of_add? hadd, Instant.seconds_lt_secondAfter_iff]
  have hrun := fun b => run_identify_sessionKeyOf subject hissuedAt hexpiry hkind hidentity s
    request.issuedAt b rfl
  simp only [hlate] at hrun
  refine ⟨fun hout => ?_, fun hout => ?_⟩
  · refine ⟨⟨_, rfl, Instant.lt_floor_of_add? hadd hout⟩, fun b => ?_⟩
    exact (hrun b).trans (congrArg some (if_pos hout))
  · refine ⟨⟨_, rfl, Instant.floor_le_of_add? hadd hout⟩, fun b => ?_⟩
    exact (hrun b).trans (congrArg some (if_neg hout))

/-- What a service takes over from its settings. -/
theorem of_ofSettings {auth : AuthSettings} {source : SecretSource}
    (h : KeyService.ofSettings auth source = .ok s) :
    s.issuerName = auth.issuerName ∧ s.loginSpan = auth.loginSpan ∧
      s.resetSpan = auth.resetSpan := by
  unfold ofSettings at h
  simp only [bind, Except.bind] at h
  split at h
  · cases h
  · split at h
    · cases h
    · split at h
      · cases h
      · cases h
        exact ⟨rfl, rfl, rfl⟩

end KeyService

/-- Settings are acceptable if and only if no check of theirs fails. -/
theorem Settings.validate_eq_ok_iff {settings : Settings} :
    settings.validate = .ok () ↔ (Text.trim settings.auth.secret.toList).isEmpty = false ∧
      settings.auth.issuerName ≠ "" ∧ settings.auth.loginSpan.isZero = false ∧
      settings.auth.resetSpan.isZero = false ∧ settings.coap.outboxCapacity ≠ 0 := by
  unfold validate
  split
  · next h => simp [h]
  · split
    · next h => simp [String.isEmpty_iff.mp h]
    · split
      · next h => simp [h]
      · split
        · next h => simp [h]
        · split
          · next h => simp [h]
          · simp_all

namespace KeyService

/-- **When a session key is good from its issue on.** A service with acceptable settings has issued
a login or reset key. If the span that the settings give such a key outlasts the second of issue,
the key expires after its issue and identifies at that very instant. If not, it has expired by then,
and is refused. Every span of a second or more outlasts the second of issue. -/
theorem session_key_good_iff_outlasts {settings : Settings} {source : SecretSource} {s : KeyService}
    (hvalid : settings.validate = .ok ()) (hs : KeyService.ofSettings settings.auth source = .ok s)
    {request key : Key} (hissuedAt : request.issuedAt.InCalendar) {now : Instant} {issuer : String}
    {b : Plan.Backend} (hissue : ((s.issue now issuer request).run b).1 = some (.ok key)) :
    (request.kind = .login →
      (settings.auth.loginSpan.Outlasts request.issuedAt → key.GoodFromIssue s issuer) ∧
        (¬ settings.auth.loginSpan.Outlasts request.issuedAt → key.ExpiredAtIssue s)) ∧
    (request.kind = .reset →
      (settings.auth.resetSpan.Outlasts request.issuedAt →
          key.GoodFromIssue s settings.auth.issuerName) ∧
        (¬ settings.auth.resetSpan.Outlasts request.issuedAt → key.ExpiredAtIssue s)) ∧
    ∀ span : Span, 0 < span.seconds → span.Outlasts request.issuedAt := by
  obtain ⟨hname, hlogin, hreset⟩ := of_ofSettings hs
  -- both kinds of key are the outcome of one sum
  have hsession : request.kind ≠ .user → ∃ subject later, subject ≠ "" ∧
      IssuedFor s.secret now issuer request.kind subject ∧
      request.issuedAt.add? (s.spanOf request.kind) = some later ∧
      key = s.sessionKeyOf subject request later.floor := by
    intro hkind
    rcases issue_session_cases s now issuer hkind with ⟨e, he⟩ | ⟨-, subject, hne, hissued, hplan⟩
    · cases (he b).symm.trans hissue
    · rw [hplan, run_sessionKey, Option.map_eq_some_iff] at hissue
      obtain ⟨later, hadd, hkey⟩ := hissue
      cases hkey
      exact ⟨subject, later, hne, hissued, hadd, rfl⟩
  refine ⟨fun hkind => ?_, fun hkind => ?_, fun span h => span.outlasts_of_seconds h _⟩
  · obtain ⟨subject, later, hne, hissued, hadd, rfl⟩ := hsession (by simp [hkind])
    obtain rfl : subject = issuer := by simpa [IssuedFor, hkind] using hissued
    rw [← hlogin]
    rw [spanOf, if_pos hkind] at hadd
    exact good_or_expired_at_issue hissuedAt hadd (.inl ⟨hkind, rfl⟩) hne
  · obtain ⟨subject, later, -, -, hadd, rfl⟩ := hsession (by simp [hkind])
    rw [← hreset, ← hname]
    rw [spanOf, if_neg (by simp [hkind])] at hadd
    exact good_or_expired_at_issue hissuedAt hadd (.inr ⟨hkind, rfl⟩)
      (hname ▸ (Settings.validate_eq_ok_iff.mp hvalid).2.1)

/-- Half a second from the last quarter of a second on is enough for a login key. -/
theorem short_key_is_good_across_seconds :
    let settings : Settings := { auth := { secret := "secret", loginSpan := ⟨0, 500000000⟩ } }
    let request : Key := ⟨"", .login, "", "", ⟨1717200000, 750000000, by decide⟩, none⟩
    let b : Plan.Backend := { vault := .empty, ids := [] }
    settings.validate = .ok () ∧
      ∃ s key, KeyService.ofSettings settings.auth ⟨fun _ => none, ""⟩ = .ok s ∧
        ((s.issue ⟨0, 0, by decide⟩ "alice" request).run b).1 = some (.ok key) ∧
        key.GoodFromIssue s "alice" := by
  intro settings request b
  let s : KeyService := ⟨"secret", defaultIssuer, ⟨0, 500000000⟩, .ofSeconds 300⟩
  have hvalid : settings.validate = .ok () := Settings.validate_eq_ok_iff.mpr (by decide)
  have hs : KeyService.ofSettings settings.auth ⟨fun _ => none, ""⟩ = .ok s := by cbv
  have hadd : request.issuedAt.add? (s.spanOf request.kind) =
      some ⟨1717200001, 250000000, by decide⟩ := by decide
  have hissue : ((s.issue ⟨0, 0, by decide⟩ "alice" request).run b).1 =
      some (.ok (s.sessionKeyOf "alice" request ⟨1717200001, 0, by decide⟩)) := by
    have hissued : IssuedFor s.secret ⟨0, 0, by decide⟩ "alice" request.kind "alice" := rfl
    rw [issue_of_issuedFor (by decide) (by decide) hissued (by decide), run_sessionKey, hadd]
    rfl
  have hout : settings.auth.loginSpan.Outlasts request.issuedAt := by decide
  exact ⟨hvalid, s, _, hs, hissue,
    ((session_key_good_iff_outlasts hvalid hs (by decide) hissue).1 rfl).1 hout⟩

/-- The same span from the first quarter of a second on: the settings are acceptable and the key is
issued, but it has expired at its issue already. -/
theorem short_key_is_expired_within_second :
    let settings : Settings := { auth := { secret := "secret", loginSpan := ⟨0, 500000000⟩ } }
    let request : Key := ⟨"", .login, "", "", ⟨1717200000, 250000000, by decide⟩, none⟩
    Span.read "500ms" = .ok settings.auth.loginSpan ∧ settings.validate = .ok () ∧
      ∃ s key, KeyService.ofSettings settings.auth ⟨fun _ => none, ""⟩ = .ok s ∧
        (∀ now b, ((s.issue now "alice" request).run b).1 = some (.ok key)) ∧
        key.expiresAt = some ⟨1717200000, 0, by decide⟩ ∧ key.ExpiredAtIssue s := by
  intro settings request
  let s : KeyService := ⟨"secret", defaultIssuer, ⟨0, 500000000⟩, .ofSeconds 300⟩
  have hvalid : settings.validate = .ok () := Settings.validate_eq_ok_iff.mpr (by decide)
  have hs : KeyService.ofSettings settings.auth ⟨fun _ => none, ""⟩ = .ok s := by cbv
  have hadd : request.issuedAt.add? (s.spanOf request.kind) =
      some ⟨1717200000, 750000000, by decide⟩ := by decide
  have hout : ¬ (s.spanOf request.kind).Outlasts request.issuedAt := by decide
  have hsubject : request.kind = .login ∧ "alice" = "alice" ∨
      request.kind = .reset ∧ "alice" = s.issuerName := .inl ⟨rfl, rfl⟩
  have hexpired := (good_or_expired_at_issue (by decide) hadd hsubject (by decide)).2 hout
  refine ⟨by rfl, hvalid, s, _, hs, fun now b => ?_, rfl, hexpired⟩
  have hissued : IssuedFor s.secret now "alice" request.kind "alice" := rfl
  rw [issue_of_issuedFor (by decide) (by decide) hissued (by decide), run_sessionKey, hadd]
  rfl

/-! ## The end of the calendar -/

/-- Nothing but the sum can be in the way of an answer, and for those only who get as far as that. -/
theorem issue_crashes_iff (s : KeyService) (now : Instant) (issuer : String)
    (hkind : request.kind ≠ .user) (b : Plan.Backend) :
    ((s.issue now issuer request).run b).1 = none ↔ request.issuedAt.nanos ≠ 0 ∧
      (∃ subject, subject ≠ "" ∧ IssuedFor s.secret now issuer request.kind subject) ∧
      request.issuedAt.add? (s.spanOf request.kind) = none := by
  constructor
  · intro hnone
    rcases issue_session_cases s now issuer hkind with
      ⟨e, he⟩ | ⟨hpart, subject, hne, hissued, hplan⟩
    · cases hnone.symm.trans (he b)
    · rw [hplan, run_sessionKey, Option.map_eq_none_iff] at hnone
      exact ⟨hpart, ⟨subject, hne, hissued⟩, hnone⟩
  · rintro ⟨hpart, ⟨subject, hne, hissued⟩, hnone⟩
    rw [issue_of_issuedFor hkind hpart hissued hne, run_sessionKey, hnone]
    rfl

/-- **When issuing a session key crashes.** A service was set up from settings, and a login or reset
key is asked for between 2024 and 2099. There is an answer, unless somebody entitled to the key
would get it for a span that ends after the calendar. No span of up to 8206164432000 seconds, which
are some 260000 years, does so. -/
theorem session_issue_crashes_iff {settings : Settings} {source : SecretSource} {s : KeyService}
    (hs : KeyService.ofSettings settings.auth source = .ok s) {request : Key}
    (hkind : request.kind ≠ .user)
    (hfrom : Date.toDays ⟨2024, 1, 1⟩ * 86400 ≤ request.issuedAt.seconds)
    (hto : request.issuedAt.seconds < Date.toDays ⟨2100, 1, 1⟩ * 86400) :
    let span :=
      if request.kind = .login then settings.auth.loginSpan else settings.auth.resetSpan
    (∀ now issuer b, ((s.issue now issuer request).run b).1 = none ↔
      request.issuedAt.nanos ≠ 0 ∧
        (∃ subject, subject ≠ "" ∧ IssuedFor s.secret now issuer request.kind subject) ∧
        Instant.lastSecond < request.issuedAt.secondAfter span) ∧
    (span.toNanos ≤ 8206164432000 * 1000000000 →
      ∀ now issuer b, ((s.issue now issuer request).run b).1 ≠ none) := by
  intro span
  have hspan : s.spanOf request.kind = span := by
    obtain ⟨-, hlogin, hreset⟩ := of_ofSettings hs
    rw [spanOf, hlogin, hreset]
  have hstart : Date.toDays ⟨2024, 1, 1⟩ * 86400 = 1704067200 := by decide
  have hend : Date.toDays ⟨2100, 1, 1⟩ * 86400 = 4102444800 := by decide
  have hfirst : Instant.firstSecond = -8334601228800 := by decide
  have hlast : Instant.lastSecond = 8210266876799 := by decide
  have hiff : ∀ now issuer b, ((s.issue now issuer request).run b).1 = none ↔
      request.issuedAt.nanos ≠ 0 ∧
        (∃ subject, subject ≠ "" ∧ IssuedFor s.secret now issuer request.kind subject) ∧
        Instant.lastSecond < request.issuedAt.secondAfter span := by
    intro now issuer b
    rw [issue_crashes_iff s now issuer hkind b, hspan, Instant.add?_eq_none_iff_of_le (by omega)]
  refine ⟨hiff, fun hshort now issuer b hnone => ?_⟩
  obtain ⟨-, -, hlate⟩ := (hiff now issuer b).mp hnone
  unfold Instant.secondAfter at hlate
  omega

/-- A reset key for an hour, asked for by anybody at the last moment of 2099. -/
theorem reset_key_never_crashes :
    let settings : Settings := { auth := { secret := "secret", resetSpan := .ofSeconds 3600 } }
    let request : Key := ⟨"", .reset, "", "", ⟨4102444799, 999999999, by decide⟩, none⟩
    ∃ s, KeyService.ofSettings settings.auth ⟨fun _ => none, ""⟩ = .ok s ∧
      ∀ now token b, ((s.issue now token request).run b).1 ≠ none := by
  intro settings request
  let s : KeyService := ⟨"secret", defaultIssuer, .ofSeconds 36000, .ofSeconds 3600⟩
  have hs : KeyService.ofSettings settings.auth ⟨fun _ => none, ""⟩ = .ok s := by cbv
  refine ⟨s, hs, (session_issue_crashes_iff hs (show request.kind ≠ .user by decide) (by decide)
    (by decide)).2 ?_⟩
  decide

/-- Settings that are acceptable and lead to a service, and a login key that crashes it. -/
theorem long_session_crashes :
    let settings : Settings := { auth := { secret := "secret", loginSpan := ⟨9000000000000, 0⟩ } }
    let request : Key := ⟨"", .login, "", "", ⟨1717200000, 5, by decide⟩, none⟩
    Span.read "9000000000000s" = .ok settings.auth.loginSpan ∧ settings.validate = .ok () ∧
      ∃ s, KeyService.ofSettings settings.auth ⟨fun _ => none, ""⟩ = .ok s ∧
        ∀ now b, ((s.issue now "alice" request).run b).1 = none := by
  intro settings request
  let s : KeyService := ⟨"secret", defaultIssuer, ⟨9000000000000, 0⟩, .ofSeconds 300⟩
  have hvalid : settings.validate = .ok () := Settings.validate_eq_ok_iff.mpr (by decide)
  have hs : KeyService.ofSettings settings.auth ⟨fun _ => none, ""⟩ = .ok s := by cbv
  have hadd : request.issuedAt.add? (s.spanOf request.kind) = none := by decide
  refine ⟨by rfl, hvalid, s, hs, fun now b => ?_⟩
  have hissued : IssuedFor s.secret now "alice" request.kind "alice" := rfl
  rw [issue_of_issuedFor (by decide) (by decide) hissued (by decide), run_sessionKey, hadd]
  rfl

end KeyService
end Gatehouse
