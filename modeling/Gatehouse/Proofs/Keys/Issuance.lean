import Gatehouse.Proofs.Keys.Vault

/-!
Issuing a user key is all or nothing. The login key, the source of ids and the store are asked in
turn, and each may fail (`KeyService.Hindrance`). Whatever fails, nothing is stored and no event
tells of a key; if nothing does, one record was added and no other touched.
-/

namespace Gatehouse

open KeyService (recordOf)

/-! ## One step of the backend -/

namespace Vault

variable {v : Vault} {key : Key} {owner id saved : String}

theorem get?_of_retrieve (h : .ok key = v.retrieve owner id) : v.get? (owner, id) = some key := by
  unfold retrieve at h
  split at h
  · next found hfound =>
    cases h
    exact hfound
  · cases h

theorem get?_of_save (h : .ok saved = (v.save key).1) : v.get? (key.issuer, key.id) = none := by
  unfold save at h
  split at h
  · cases h
  · next hfree => simpa [Table.contains] using hfree

end Vault

namespace Plan.Backend

variable {b : Backend} {key old : Key} {e : Failure} {saved : String}

theorem vault_of_freshId (b : Backend) : b.freshId.2.vault = b.vault := (vault_freshId b).symm

/-- The source of ids and the store know nothing of each other. -/
theorem save_freshId (b : Backend) (key : Key) : (b.freshId.2.save key).1 = (b.save key).1 := by
  unfold save
  rw [(follows_freshId b).outage_eq, vault_of_freshId]
  split <;> rfl

/-- A save that fails stores nothing. -/
theorem vault_of_save_error (h : (b.save key).1 = .error e) :
    (b.save key).2.vault = b.vault := by
  rw [← vault_save, h]
  rfl

theorem vault_of_save_ok (h : (b.save key).1 = .ok saved) :
    (b.save key).2.vault = b.vault.insert (key.issuer, key.id) key := by
  rw [← vault_save, h]
  rfl

/-- A save that succeeds has found the place free. -/
theorem free_of_save_ok (h : (b.save key).1 = .ok saved) :
    b.vault.get? (key.issuer, key.id) = none := by
  unfold save at h
  split at h
  · cases h
  · exact Vault.get?_of_save h.symm

/-- A store that lets saves through refuses the one whose place is taken. -/
theorem save_of_taken (hb : b.outage.save = none)
    (htaken : b.vault.get? (key.issuer, key.id) = some old) :
    (b.save key).1 = .error .conflict := by
  unfold save Vault.save
  simp [hb, Table.contains, htaken]

theorem save_of_free (hb : b.outage.save = none)
    (hfree : b.vault.get? (key.issuer, key.id) = none) : (b.save key).1 = .ok key.id := by
  unfold save Vault.save
  simp [hb, Table.contains, hfree]

theorem retrieve_of_found {issuer id : String} (hb : b.outage.retrieve = none)
    (hfound : b.vault.get? (issuer, id) = some key) : b.retrieve issuer id = .ok key := by
  rw [retrieve, hb, Vault.retrieve, hfound]
  rfl

end Plan.Backend

namespace KeyService

variable {s : KeyService} {now : Instant} {token owner id : String} {request key : Key}
  {b : Plan.Backend}

/-- What keeps a user key from being issued: the check of the login key, the source of ids or the
store. -/
inductive Hindrance (s : KeyService) (now : Instant) (token : String) (request : Key)
    (b : Plan.Backend) : Failure → Prop
  | login {cause : Failure}
    (h : ((s.login now "issue user key" token).run b).1 = some (.error cause)) :
    Hindrance s now token request b cause
  | id {owner : String} {cause : Failure} (hlogin : IsLogin s.secret now token owner)
    (h : b.freshId.1 = .error cause) : Hindrance s now token request b cause
  | store {owner id : String} {cause : Failure} (hlogin : IsLogin s.secret now token owner)
    (hid : b.freshId.1 = .ok id)
    (h : (b.save (recordOf (s.userKeyOf owner id request))).1 = .error cause) :
    Hindrance s now token request b cause

/-- With a login key and an id, only the store can be in the way. -/
theorem Hindrance.save_eq {cause : Failure} (h : s.Hindrance now token request b cause)
    (hlogin : IsLogin s.secret now token owner) (hid : b.freshId.1 = .ok id) :
    (b.save (recordOf (s.userKeyOf owner id request))).1 = .error cause := by
  cases h with
  | login h =>
    rw [login_of_isLogin "issue user key" hlogin] at h
    cases h
  | id _ h => cases hid.symm.trans h
  | store hlogin' hid' h =>
    obtain rfl := hlogin.unique hlogin'
    cases hid.symm.trans hid'
    exact h

/-- A request for a user key ends at the first hindrance, or with a key. -/
theorem run_issue_cases (hkind : request.kind = .user) (s : KeyService) (now : Instant)
    (token : String) (b : Plan.Backend) :
    let r := (s.issue now token request).run b
    (∃ e, r.1 = some (.error e) ∧ r.2.1.vault = b.vault ∧
      (∀ owner id kind, .issued owner id kind ∉ r.2.2.events) ∧
      (request.issuedAt.nanos = 0 ∧ e = .invalidIssueTime ∨
        ∃ cause, s.Hindrance now token request b cause ∧ e = .during "issue user key" cause)) ∨
    ∃ owner id saved, IsLogin s.secret now token owner ∧ b.freshId.1 = .ok id ∧
      (b.save (recordOf (s.userKeyOf owner id request))).1 = .ok saved ∧
      r.1 = some (.ok (s.userKeyOf owner id request)) ∧
      r.2.1.vault = b.vault.insert (owner, id) (recordOf (s.userKeyOf owner id request)) ∧
      r.2.2.events = [.issued owner id .user] := by
  intro r
  by_cases hpart : request.issuedAt.nanos = 0
  · have hr : r = (some (.error .invalidIssueTime), b, {}) := by
      simp only [r, issue, if_pos hpart]
      rfl
    rw [hr]
    exact .inl ⟨_, rfl, rfl, by simp, .inl ⟨hpart, rfl⟩⟩
  have hplan : s.issue now token request = s.userKey now token request := by
    rw [issue, if_neg hpart, hkind]
  simp only [r, hplan, userKey]
  -- the login key comes first, then the id, then the store
  rcases login_cases s now "issue user key" token with ⟨owner, hlogin, h⟩ | ⟨-, reason, h⟩
  · rw [h]
    simp only [Plan.bind_eq, Plan.bind, Plan.run]
    cases hid : b.freshId.1 with
    | error cause =>
      exact .inl ⟨_, rfl, b.vault_of_freshId, by simp [Plan.run], .inr ⟨cause, .id hlogin hid, rfl⟩⟩
    | ok id =>
      have hsame := b.save_freshId (recordOf (s.userKeyOf owner id request))
      simp only [Plan.run]
      cases hsave : (b.freshId.2.save (recordOf (s.userKeyOf owner id request))).1 with
      | error cause =>
        refine .inl ⟨_, rfl, ?_, by simp [Plan.run, Plan.Trail.call],
          .inr ⟨cause, .store hlogin hid (hsame.symm.trans hsave), rfl⟩⟩
        exact (Plan.Backend.vault_of_save_error hsave).trans b.vault_of_freshId
      | ok saved =>
        refine .inr ⟨owner, id, saved, hlogin, rfl, hsame.symm.trans hsave, rfl, ?_, ?_⟩
        · exact (Plan.Backend.vault_of_save_ok hsave).trans (by rw [b.vault_of_freshId]; rfl)
        · exact congrArg (fun kind => [AuditEvent.issued owner id kind]) hkind
  · have hlogin : ((s.login now "issue user key" token).run b).1 =
        some (.error (.unauthorized reason)) := by rw [h]; rfl
    rw [h]
    refine .inl ⟨_, rfl, rfl, fun owner id kind hmem => ?_, .inr ⟨_, .login hlogin, rfl⟩⟩
    cases List.mem_singleton.mp hmem

/-- The holder of a login key is issued a key under an id that is free. -/
theorem run_issue_of_free (request : Key) (b : Plan.Backend) (hkind : request.kind = .user)
    (hpart : request.issuedAt.nanos ≠ 0) (hlogin : IsLogin s.secret now token owner)
    (hid : b.freshId.1 = .ok id) (hstore : b.outage.save = none)
    (hfree : b.vault.get? (owner, id) = none) :
    let r := (s.issue now token request).run b
    r.1 = some (.ok (s.userKeyOf owner id request)) ∧
      r.2.1.vault = b.vault.insert (owner, id) (recordOf (s.userKeyOf owner id request)) ∧
      r.2.2.events = [.issued owner id .user] := by
  have hsave : (b.save (recordOf (s.userKeyOf owner id request))).1 = .ok id :=
    Plan.Backend.save_of_free hstore hfree
  rcases run_issue_cases hkind s now token b with
    ⟨e, -, -, -, ⟨hzero, -⟩ | ⟨cause, hcause, -⟩⟩ |
    ⟨owner', id', saved, hlogin', hid', -, hanswer, hvault, hevents⟩
  · exact absurd hzero hpart
  · cases hsave.symm.trans (hcause.save_eq hlogin hid)
  · obtain rfl := hlogin.unique hlogin'
    cases hid.symm.trans hid'
    exact ⟨hanswer, hvault, hevents⟩

/-- The holder of a login key gets a record that has not expired as it is stored. -/
theorem run_retrieve_of_live (hlogin : IsLogin s.secret now token owner) (hid : id ≠ "")
    (hb : b.outage.retrieve = none) (hfound : b.vault.get? (owner, id) = some key)
    (hlive : ∀ x, key.expiresAt = some x → now < x) :
    ((s.retrieve now token id).run b).1 = some (.ok key) := by
  have hread : b.retrieve owner id = .ok key := Plan.Backend.retrieve_of_found hb hfound
  rw [retrieve, if_neg (mt String.isEmpty_iff.mp hid), login_of_isLogin "retrieve key" hlogin]
  simp only [Plan.bind_eq, Plan.bind, Plan.run, hread, if_neg (Key.not_isExpiredAt_iff.mpr hlive)]

/-- **Issuing a user key is all or nothing.** A user key is asked for, with any credential and
request, and the source of ids and any calls to the store may fail. An error leaves the store exactly
as it was and no event of an issued key; it is of the kind of what went wrong, if the issue time of
the request was in order. A place that is taken is a conflict, and keeps what it has. A key is the
answer only if its place was free. Then its record is there, with the digest of the token and the
times of the request; nothing else has changed; and before its expiry the holder of a login key gets
that record, provided its id is not empty. There always is an answer. -/
theorem issue_is_all_or_nothing (s : KeyService) (now : Instant) (token : String) {request : Key}
    (hkind : request.kind = .user) (b : Plan.Backend) :
    let r := (s.issue now token request).run b
    (∀ e, r.1 = some (.error e) →
      r.2.1.vault = b.vault ∧ (∀ owner id kind, .issued owner id kind ∉ r.2.2.events) ∧
        (request.issuedAt.nanos = 0 ∧ e = .invalidIssueTime ∨
          ∃ cause, s.Hindrance now token request b cause ∧ e.kind = cause.kind)) ∧
    (∀ owner id old, request.issuedAt.nanos ≠ 0 → IsLogin s.secret now token owner →
      b.freshId.1 = .ok id → b.outage.save = none → b.vault.get? (owner, id) = some old →
        (∃ e, r.1 = some (.error e) ∧ e.kind = .conflict) ∧
          r.2.1.vault.get? (owner, id) = some old) ∧
    (∀ key, r.1 = some (.ok key) →
      ∃ owner id, IsLogin s.secret now token owner ∧ b.freshId.1 = .ok id ∧
        key.issuer = owner ∧ key.id = id ∧
        key.issuedAt = request.issuedAt ∧ key.expiresAt = request.expiresAt ∧
        b.vault.get? (owner, id) = none ∧
        (∀ place, r.2.1.vault.get? place =
          if place = (owner, id) then some { key with secret := Vault.digest key.secret }
          else b.vault.get? place) ∧
        ∀ later session (b' : Plan.Backend), b'.vault = r.2.1.vault → b'.outage.retrieve = none →
          IsLogin s.secret later session owner → (∀ x, key.expiresAt = some x → later < x) →
          id ≠ "" → ((s.retrieve later session id).run b').1 =
            some (.ok { key with secret := Vault.digest key.secret })) ∧
    r.1 ≠ none := by
  intro r
  rcases run_issue_cases hkind s now token b with
    ⟨e, hanswer, hvault, hevents, hcause⟩ |
    ⟨owner, id, saved, hlogin, hid, hsave, hanswer, hvault, -⟩
  · have hr : r.1 = some (.error e) := hanswer
    rw [hr]
    refine ⟨fun e' he => ?_, fun owner id old hpart hlogin hid hstore htaken => ?_, by simp,
      by simp⟩
    · cases he
      refine ⟨hvault, hevents, hcause.imp_right ?_⟩
      rintro ⟨cause, h, rfl⟩
      exact ⟨cause, h, rfl⟩
    · obtain ⟨hzero, -⟩ | ⟨cause, hcause, rfl⟩ := hcause
      · exact absurd hzero hpart
      · have hconflict : (b.save (recordOf (s.userKeyOf owner id request))).1 = .error .conflict :=
          Plan.Backend.save_of_taken hstore htaken
        cases (hcause.save_eq hlogin hid).symm.trans hconflict
        exact ⟨⟨_, rfl, rfl⟩, hvault ▸ htaken⟩
  · have hr : r.1 = some (.ok (s.userKeyOf owner id request)) := hanswer
    have hfree : b.vault.get? (owner, id) = none := Plan.Backend.free_of_save_ok hsave
    have hafter : ∀ place, r.2.1.vault.get? place =
        if place = (owner, id) then some (recordOf (s.userKeyOf owner id request))
        else b.vault.get? place := by
      intro place
      rw [show r.2.1.vault = _ from hvault, Table.get?_insert]
    rw [hr]
    refine ⟨by simp, fun owner' id' old _ hlogin' hid' _ htaken => ?_, fun key hkey => ?_, by simp⟩
    · -- the place was free
      obtain rfl := hlogin.unique hlogin'
      cases hid.symm.trans hid'
      cases hfree.symm.trans htaken
    · cases hkey
      refine ⟨owner, id, hlogin, hid, rfl, rfl, rfl, rfl, hfree, hafter, ?_⟩
      intro later session b' hb' hread hsession hlive hne
      refine run_retrieve_of_live hsession hne hread ?_ hlive
      rw [hb', hafter, if_pos rfl]
      rfl

/-- A key for which the store had room, fetched in the last nanosecond before its expiry. -/
theorem issued_key_is_fetched_to_the_nanosecond :
    let s := KeyService.standard "secret"
    let session := Token.issue s.secret
      (s.sessionClaims "alice" ⟨"", .login, "", "", ⟨50, 1, by decide⟩, none⟩ ⟨36050, 0, by decide⟩)
    let request : Key := ⟨"", .user, "", "", ⟨100, 5, by decide⟩, some ⟨200, 7, by decide⟩⟩
    let r := (s.issue ⟨100, 9, by decide⟩ session request).run { vault := .empty, ids := [.ok "k1"] }
    ∃ key record, r.1 = some (.ok key) ∧
      ((s.retrieve ⟨200, 6, by decide⟩ session "k1").run r.2.1).1 = some (.ok record) ∧
      record.secret = Vault.digest key.secret ∧ record.issuedAt = ⟨100, 5, by decide⟩ ∧
      record.expiresAt = some ⟨200, 7, by decide⟩ := by
  -- the run gets no name here: to compare it with its name would evaluate the tokens
  intro s session request
  have hlogin : ∀ now : Instant, now.seconds < 36050 → IsLogin s.secret now session "alice" :=
    fun now hnow => ⟨_, Token.carries_issue s.secret ⟨by decide, by decide⟩,
      by simpa [Claims.isExpiredAt, sessionClaims] using hnow, rfl, rfl, by decide⟩
  have hissue : IsLogin s.secret ⟨100, 9, by decide⟩ session "alice" := hlogin _ (by decide)
  have hfetch : IsLogin s.secret ⟨200, 6, by decide⟩ session "alice" := hlogin _ (by decide)
  obtain ⟨hanswer, -, -⟩ := run_issue_of_free request { vault := .empty, ids := [.ok "k1"] } rfl
    (by decide) hissue rfl rfl rfl
  obtain ⟨-, -, hissued, -⟩ := issue_is_all_or_nothing s ⟨100, 9, by decide⟩ session
    (show request.kind = .user from rfl) { vault := .empty, ids := [.ok "k1"] }
  obtain ⟨owner, id, howner, hid, -, -, hissuedAt, hexpiresAt, -, -, hrecord⟩ := hissued _ hanswer
  obtain rfl := howner.unique hissue
  cases hid
  refine ⟨_, _, hanswer, hrecord _ _ _ rfl ?_ hfetch ?_ (by decide), rfl, hissuedAt, hexpiresAt⟩
  · rw [(Plan.follows_run _ _).outage_eq]
  · intro x hx
    cases hexpiresAt.symm.trans hx
    decide

/-- A source that gives an empty id: the key is issued and stored, and cannot be fetched. -/
theorem nameless_key_is_not_fetched :
    let s := KeyService.standard "secret"
    let session := Token.issue s.secret
      (s.sessionClaims "alice" ⟨"", .login, "", "", ⟨50, 1, by decide⟩, none⟩ ⟨36050, 0, by decide⟩)
    let request : Key := ⟨"", .user, "", "", ⟨100, 5, by decide⟩, none⟩
    let r := (s.issue ⟨100, 9, by decide⟩ session request).run { vault := .empty, ids := [.ok ""] }
    IsLogin s.secret ⟨100, 9, by decide⟩ session "alice" ∧
      ∃ key, r.1 = some (.ok key) ∧ key.id = "" ∧ key.expiresAt = none ∧
        r.2.1.vault.get? ("alice", "") = some { key with secret := Vault.digest key.secret } ∧
        ((s.retrieve ⟨100, 9, by decide⟩ session "").run r.2.1).1 =
          some (.error (.malformedEntity "empty key id")) := by
  intro s session request
  have hlogin : IsLogin s.secret ⟨100, 9, by decide⟩ session "alice" :=
    ⟨_, Token.carries_issue s.secret ⟨by decide, by decide⟩, rfl, rfl, rfl, by decide⟩
  obtain ⟨hanswer, hvault, -⟩ := run_issue_of_free request { vault := .empty, ids := [.ok ""] } rfl
    (by decide) hlogin rfl rfl rfl
  refine ⟨hlogin, _, hanswer, rfl, rfl, ?_, rfl⟩
  rw [hvault]
  exact Table.get?_insert_self _ _ _

end KeyService
end Gatehouse
