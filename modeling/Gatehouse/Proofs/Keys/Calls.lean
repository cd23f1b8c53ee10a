import Gatehouse.Keys.Service
import Gatehouse.Proofs.Keys.Plan
import Gatehouse.Proofs.Keys.Signed

/-!
The calls of the key service as data, and what a login key is. Every check of a login key comes
out in one of two ways (`login_cases`): the identity that the token holds, with nothing asked of
anyone, or a rejection that is recorded once.
-/

namespace Gatehouse

open KeyService (Result)

/-- A call of the key service, with the arguments that the caller chooses. -/
inductive Call where
  /-- The issuer is the identity for a login key, and the token of a login key for all others. -/
  | issue (issuer : String) (request : Key)
  | revoke (token id : String)
  | retrieve (token id : String)
  | identify (token : String)

/-- What a call that succeeds answers. -/
inductive Reply where
  | issued (key : Key)
  | revoked
  | retrieved (key : Key)
  | identity (name : String)
  deriving DecidableEq

namespace Call

def replying {α : Type} (p : Plan (Result α)) (reply : α → Reply) : Plan (Result Reply) :=
  p.bind fun r => .done (r.map reply)

/-- The operation that a call comes to. -/
def plan (s : KeyService) (now : Instant) : Call → Plan (Result Reply)
  | issue issuer request => replying (s.issue now issuer request) .issued
  | revoke token id => replying (s.revoke now token id) fun _ => .revoked
  | retrieve token id => replying (s.retrieve now token id) .retrieved
  | identify token => replying (s.identify now token) .identity

/-- The credential that comes with a call. -/
def token : Call → String
  | issue issuer _ => issuer
  | revoke token _ => token
  | retrieve token _ => token
  | identify token => token

/-- The name of the operation in the audit trail and in failures. -/
def operation : Call → String
  | issue _ request => "issue " ++ request.kind.word ++ " key"
  | revoke .. => "revoke key"
  | retrieve .. => "retrieve key"
  | identify _ => "identify"

/-- The call manages keys, and its arguments pass the checks that come before the credential. -/
def Manages : Call → Prop
  | issue _ request => request.kind ≠ .login ∧ request.issuedAt.nanos ≠ 0
  | revoke _ id => id ≠ ""
  | retrieve _ id => id ≠ ""
  | identify _ => False

end Call

/-- The token is a login key of this identity: correctly signed, not expired, of the right kind and
with a subject. -/
def IsLogin (secret : String) (now : Instant) (token identity : String) : Prop :=
  ∃ claims, Token.Carries secret token claims ∧ claims.isExpiredAt now = false ∧
    claims.kind = some .login ∧ claims.subject = identity ∧ identity ≠ ""

/-- Whom a key is issued for: a login key for the identity that the caller vouches for, any other for
the holder of the login key that comes with the request. -/
def IssuedFor (secret : String) (now : Instant) (issuer : String) (kind : KeyKind)
    (identity : String) : Prop :=
  if kind = .login then identity = issuer else IsLogin secret now issuer identity

theorem IsLogin.unique {secret token a b : String} {now now' : Instant}
    (ha : IsLogin secret now token a) (hb : IsLogin secret now' token b) : a = b := by
  obtain ⟨c, hc, -, -, rfl, -⟩ := ha
  obtain ⟨d, hd, -, -, rfl, -⟩ := hb
  rw [hc.unique hd]

theorem IssuedFor.unique {secret issuer a b : String} {now : Instant} {kind : KeyKind}
    (ha : IssuedFor secret now issuer kind a) (hb : IssuedFor secret now issuer kind b) : a = b := by
  unfold IssuedFor at ha hb
  split at ha
  · next hkind => exact ha.trans (if_pos hkind ▸ hb).symm
  · next hkind => exact ha.unique (if_neg hkind ▸ hb)

theorem TokenFault.reason_ne_keyExpired (fault : TokenFault) : fault.reason ≠ .keyExpired := by
  cases fault <;> simp [reason]

namespace KeyService

variable {s : KeyService} {now : Instant} {token : String}

theorem login_of_isLogin {identity : String} (op : String)
    (h : IsLogin s.secret now token identity) : s.login now op token = .done (.ok identity) := by
  obtain ⟨claims, hcarries, hlive, hkind, rfl, hne⟩ := h
  have hparse : Token.parse s.secret token now = .ok claims :=
    Token.parse_eq_ok_iff.mpr ⟨hcarries, hlive⟩
  have hsubject : claims.subject.isEmpty = false := by simpa using hne
  simp only [login, hparse, hkind, identifyClaims, hsubject, if_true, Bool.false_eq_true, if_false]

theorem login_of_not_isLogin (op : String)
    (h : ∀ identity, ¬ IsLogin s.secret now token identity) :
    ∃ reason, s.login now op token = deny op reason := by
  rw [login]
  split
  · next fault _ => exact ⟨fault.reason, rfl⟩
  · next claims hparse =>
    split
    · next hkind =>
      obtain ⟨hcarries, hlive⟩ := Token.parse_eq_ok_iff.mp hparse
      have hsubject : claims.subject.isEmpty = true := by
        cases he : claims.subject.isEmpty with
        | true => rfl
        | false =>
          refine (h claims.subject ?_).elim
          exact ⟨claims, hcarries, hlive, hkind, rfl, by simpa using he⟩
      refine ⟨.missingClaim, ?_⟩
      simp only [identifyClaims, hkind, hsubject, if_true]
    · exact ⟨.wrongKeyType, rfl⟩

/-- A login key is never rejected for the expiry of a stored key. -/
theorem reason_of_login {op : String} {reason : DenyReason}
    (h : s.login now op token = deny op reason) : reason ≠ .keyExpired := by
  rw [login] at h
  split at h
  · next fault _ =>
    have hreason : fault.reason = reason := by simpa [deny] using h
    exact hreason ▸ fault.reason_ne_keyExpired
  · next claims _ =>
    split at h
    · next hkind =>
      simp only [identifyClaims, hkind] at h
      split at h
      · have hreason : DenyReason.missingClaim = reason := by simpa [deny] using h
        simp [← hreason]
      · cases h
    · have hreason : DenyReason.wrongKeyType = reason := by simpa [deny] using h
      simp [← hreason]

/-- A check of a login key: the identity it holds, or one recorded rejection. -/
theorem login_cases (s : KeyService) (now : Instant) (op token : String) :
    (∃ identity, IsLogin s.secret now token identity ∧
        s.login now op token = .done (.ok identity)) ∨
      (∀ identity, ¬ IsLogin s.secret now token identity) ∧
        ∃ reason, s.login now op token = deny op reason := by
  by_cases h : ∃ identity, IsLogin s.secret now token identity
  · obtain ⟨identity, h⟩ := h
    exact .inl ⟨identity, h, login_of_isLogin op h⟩
  · have hnot : ∀ identity, ¬ IsLogin s.secret now token identity := fun identity hi =>
      h ⟨identity, hi⟩
    exact .inr ⟨hnot, login_of_not_isLogin op hnot⟩

end KeyService
end Gatehouse
