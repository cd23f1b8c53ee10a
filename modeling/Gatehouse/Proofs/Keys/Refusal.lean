import Gatehouse.Proofs.Keys.Calls

/-!
Without a login key there is no managing of keys. Whatever token comes with a call and however the
collaborators would answer, a call that manages keys and brings no login key is over after one
recorded rejection: nothing was asked of the store or of the source of ids.

The store is left alone by whole classes of calls even when they succeed: issuing keys that are not
stored (`leavesStore_issue`), and identifying with anything but a user key
(`leavesStore_identify`).
-/

namespace Gatehouse

open KeyService (Result)
open Plan (Exec)

/-- Nothing is asked of the store, whatever the answers to the rest. -/
def Plan.LeavesStore {α : Type} (p : Plan α) : Prop :=
  ∀ trace result, Exec p trace result → ∀ x ∈ trace, x.call? = none

namespace Plan

variable {α β : Type}

theorem leavesStore_done (a : α) : LeavesStore (.done a) := by
  intro trace result h x hx
  cases h
  cases hx

theorem leavesStore_crash : LeavesStore (.crash : Plan α) := by
  intro trace result h x hx
  cases h
  cases hx

theorem LeavesStore.record {event : AuditEvent} {next : Plan α} (hnext : LeavesStore next) :
    LeavesStore (.record event next) := by
  intro trace result h x hx
  cases h with
  | record h =>
    rcases List.mem_cons.mp hx with rfl | hx
    · rfl
    · exact hnext _ _ h x hx

theorem LeavesStore.bind {p : Plan α} {f : α → Plan β} (hp : LeavesStore p)
    (hf : ∀ a, LeavesStore (f a)) : LeavesStore (p.bind f) :=
  fun _ _ h => forall_exchange_bind hp hf h

end Plan

namespace KeyService

variable (s : KeyService) (now : Instant)

theorem leavesStore_deny {α : Type} (op : String) (reason : DenyReason) :
    (deny op reason : Plan (Result α)).LeavesStore :=
  (Plan.leavesStore_done _).record

theorem leavesStore_login (op token : String) : (s.login now op token).LeavesStore := by
  rcases login_cases s now op token with ⟨identity, -, h⟩ | ⟨-, reason, h⟩
  · rw [h]
    exact Plan.leavesStore_done _
  · rw [h]
    exact leavesStore_deny op reason

theorem leavesStore_sessionKey (subject : String) (span : Span) (request : Key) :
    (s.sessionKey subject span request).LeavesStore := by
  rw [sessionKey]
  split
  · exact Plan.leavesStore_crash
  · exact (Plan.leavesStore_done _).record

/-- Keys that are not stored are issued without the store. -/
theorem leavesStore_issue (issuer : String) {request : Key} (h : request.kind ≠ .user) :
    (s.issue now issuer request).LeavesStore := by
  rw [issue]
  split
  · exact Plan.leavesStore_done _
  · split
    · split
      · exact Plan.leavesStore_done _
      · exact leavesStore_sessionKey s _ _ _
    · refine (leavesStore_login s now _ _).bind fun r => ?_
      split
      · exact Plan.leavesStore_done _
      · exact leavesStore_sessionKey s _ _ _
    · next hkind => exact absurd hkind h

theorem leavesStore_identifyClaims (op : String) {claims : Claims} (h : claims.kind ≠ some .user) :
    (identifyClaims now op claims).LeavesStore := by
  rw [identifyClaims]
  split
  · next hkind => exact absurd hkind h
  · split
    · exact leavesStore_deny _ _
    · exact Plan.leavesStore_done _
  · split
    · exact leavesStore_deny _ _
    · exact Plan.leavesStore_done _
  · exact leavesStore_deny _ _

/-- Anything but a user key is identified without the store. -/
theorem leavesStore_identify {token : String}
    (h : ∀ claims, Token.Carries s.secret token claims → claims.kind ≠ some .user) :
    (s.identify now token).LeavesStore := by
  rw [identify]
  split
  · next claims hparse =>
    exact leavesStore_identifyClaims now _ (h claims (Token.parse_eq_ok_iff.mp hparse).1)
  · next claims hparse =>
    rw [if_neg (h claims (Token.parse_eq_expired_iff.mp hparse).1)]
    exact leavesStore_deny _ _
  · exact leavesStore_deny _ _

/-! ## Without a login key -/

/-- What is left of an operation that was brought no login key: one recorded rejection. -/
def rejected (α : Type) (op : String) (reason : DenyReason) : Plan (Result α) :=
  .record (.denied op reason) (.done (.error (.during op (.unauthorized reason))))

variable {s : KeyService} {now : Instant} {token id : String}

theorem issue_of_not_isLogin {request : Key} (hkind : request.kind ≠ .login)
    (hnanos : request.issuedAt.nanos ≠ 0)
    (h : ∀ identity, ¬ IsLogin s.secret now token identity) :
    ∃ reason, s.issue now token request =
      rejected Key ("issue " ++ request.kind.word ++ " key") reason := by
  rw [issue, if_neg hnanos]
  cases hk : request.kind with
  | login => exact absurd hk hkind
  | reset =>
    obtain ⟨reason, hr⟩ := login_of_not_isLogin "issue reset key" h
    exact ⟨reason, by simp only [hr]; rfl⟩
  | user =>
    obtain ⟨reason, hr⟩ := login_of_not_isLogin "issue user key" h
    exact ⟨reason, by simp only [userKey, hr]; rfl⟩

theorem revoke_of_not_isLogin (hid : id ≠ "")
    (h : ∀ identity, ¬ IsLogin s.secret now token identity) :
    ∃ reason, s.revoke now token id = rejected Unit "revoke key" reason := by
  obtain ⟨reason, hr⟩ := login_of_not_isLogin "revoke key" h
  refine ⟨reason, ?_⟩
  rw [revoke, if_neg fun he => hid (String.isEmpty_iff.mp he), hr]
  rfl

theorem retrieve_of_not_isLogin (hid : id ≠ "")
    (h : ∀ identity, ¬ IsLogin s.secret now token identity) :
    ∃ reason, s.retrieve now token id = rejected Key "retrieve key" reason := by
  obtain ⟨reason, hr⟩ := login_of_not_isLogin "retrieve key" h
  refine ⟨reason, ?_⟩
  rw [retrieve, if_neg fun he => hid (String.isEmpty_iff.mp he), hr]
  rfl

end KeyService

namespace Call

theorem leavesStore_replying {α : Type} {p : Plan (Result α)} (hp : p.LeavesStore)
    (reply : α → Reply) : (replying p reply).LeavesStore :=
  hp.bind fun _ => Plan.leavesStore_done _

/-- A rejection inside a managing call: recorded, named after the operation, and all there is. -/
theorem plan_of_not_isLogin (s : KeyService) (now : Instant) {c : Call} (hc : c.Manages)
    (h : ∀ identity, ¬ IsLogin s.secret now c.token identity) :
    ∃ reason, c.plan s now = .record (.denied c.operation reason)
      (.done (.error (.during c.operation (.unauthorized reason)))) := by
  cases c with
  | issue issuer request =>
    simp only [token] at h
    obtain ⟨reason, hplan⟩ := KeyService.issue_of_not_isLogin hc.1 hc.2 h
    exact ⟨reason, by rw [plan, hplan]; rfl⟩
  | revoke t id =>
    simp only [token] at h
    obtain ⟨reason, hplan⟩ := KeyService.revoke_of_not_isLogin hc h
    exact ⟨reason, by rw [plan, hplan]; rfl⟩
  | retrieve t id =>
    simp only [token] at h
    obtain ⟨reason, hplan⟩ := KeyService.retrieve_of_not_isLogin hc h
    exact ⟨reason, by rw [plan, hplan]; rfl⟩
  | identify t => exact hc.elim

/-- **No key management without a login key.** A managing call whose token is no login key has one
run only, whatever the store and the source of ids would answer: a rejection is recorded, and the
error is of the kind and with the reason recorded. Issuing keys that are not stored, and identifying
with anything but a user key, make no call to the store in any run. -/
theorem refused_without_login (s : KeyService) (now : Instant) :
    (∀ c : Call, c.Manages → (∀ identity, ¬ IsLogin s.secret now c.token identity) →
      ∃ reason e, e.kind = .unauthorized ∧ e.denyReason? = some reason ∧
        ∀ trace result, Exec (c.plan s now) trace result ↔
          trace = [.record (.denied c.operation reason)] ∧ result = some (.error e)) ∧
    (∀ issuer request, request.kind ≠ .user → ((issue issuer request).plan s now).LeavesStore) ∧
    (∀ token, (∀ claims, Token.Carries s.secret token claims → claims.kind ≠ some .user) →
      ((identify token).plan s now).LeavesStore) := by
  refine ⟨fun c hc h => ?_, fun issuer request hkind => ?_, fun token h => ?_⟩
  · obtain ⟨reason, hplan⟩ := plan_of_not_isLogin s now hc h
    refine ⟨reason, .during c.operation (.unauthorized reason), rfl, rfl, fun trace result => ?_⟩
    rw [hplan, Plan.exec_record_iff]
    constructor
    · rintro ⟨rest, rfl, hrest⟩
      obtain ⟨rfl, rfl⟩ := Plan.exec_done_iff.mp hrest
      exact ⟨rfl, rfl⟩
    · rintro ⟨rfl, rfl⟩
      exact ⟨[], rfl, .done _⟩
  · exact leavesStore_replying (KeyService.leavesStore_issue s now issuer hkind) _
  · exact leavesStore_replying (KeyService.leavesStore_identify s now h) _

/-- A user key, however well signed, revokes no key, while a reset key can be asked for with it and
a login key identified without the store. -/
theorem user_key_revokes_nothing :
    let s := KeyService.standard "secret"
    let now : Instant := ⟨1700000000, 5, by decide⟩
    let user := Token.issue s.secret (KeyService.userClaims "alice" "k1" now none)
    let session := Token.issue s.secret (s.sessionClaims "alice" ⟨"", .login, "", "", now, none⟩ now)
    (∃ reason e, e.kind = .unauthorized ∧ e.denyReason? = some reason ∧
      ∀ trace result, Exec ((revoke user "k2").plan s now) trace result ↔
        trace = [.record (.denied "revoke key" reason)] ∧ result = some (.error e)) ∧
    ((issue user ⟨"", .reset, "", "", now, none⟩).plan s now).LeavesStore ∧
    ((identify session).plan s now).LeavesStore := by
  intro s now user session
  have huser : Token.Carries s.secret user (KeyService.userClaims "alice" "k1" now none) :=
    Token.carries_issue s.secret ⟨by decide, by decide⟩
  have hsession : Token.Carries s.secret session
      (s.sessionClaims "alice" ⟨"", .login, "", "", now, none⟩ now) :=
    Token.carries_issue s.secret ⟨by decide, by decide⟩
  refine ⟨(refused_without_login s now).1 (.revoke user "k2") (show "k2" ≠ "" by decide) ?_,
    (refused_without_login s now).2.1 user ⟨"", .reset, "", "", now, none⟩ (by decide),
    (refused_without_login s now).2.2 session ?_⟩
  · rintro identity ⟨claims, hclaims, -, hkind, -⟩
    rw [hclaims.unique huser] at hkind
    cases hkind
  · intro claims hclaims hkind
    rw [hclaims.unique hsession] at hkind
    cases hkind

end Call
end Gatehouse
