import Gatehouse.Proofs.Keys.Cell

/-!
The courses that a call can take: what passes between the key service and its collaborators, in
order, and the answer that comes of it. There are few of them (`Entry.Course`), and every run of a
call takes one, whatever the store and the source of ids answer (`Entry.course_of_exec`). So what a
call can do is settled by a look at each course, and no plan has to be opened again.
-/

namespace Gatehouse

open KeyService (Result recordOf)
open Plan (Exec)

/-- What passes once a record was found expired: its deletion, and what is told about that. -/
def Exchange.expiry (operation owner id : String) (answer : Except Failure Unit) : List Exchange :=
  .remove owner id answer ::
    ((match answer with
      | .ok () => []
      | .error e => [.notify (.expiredKeyKept id e)]) ++
    [.record (.expired owner id), .record (.denied operation .keyExpired)])

namespace Entry

/-- What passes in a call. -/
inductive Course (s : KeyService) : Entry → List Exchange → Prop
  | refused {time : Instant} {call : Call} {e : Failure} (he : e.denyReason? = none) :
    Course s ⟨time, call, some (.error e)⟩ []
  | denied {time : Instant} {call : Call} {e : Failure} {reason : DenyReason}
    (hkind : e.kind = .unauthorized) (he : e.denyReason? = some reason)
    (hreason : reason ≠ .keyExpired) :
    Course s ⟨time, call, some (.error e)⟩ [.record (.denied call.operation reason)]
  /-- The expiry of a session key would lie past the end of the calendar. -/
  | crashed {time : Instant} {issuer : String} {request : Key} (hrequest : request.kind ≠ .user) :
    Course s ⟨time, .issue issuer request, none⟩ []
  /-- A key that is not stored is issued, or is good. -/
  | handedOut {time : Instant} {issuer identity : String} {request key : Key}
    (hrequest : request.kind ≠ .user) (hkey : key.kind = request.kind) (hid : key.id = "")
    (hidentity : IssuedFor s.secret time issuer request.kind identity) :
    Course s ⟨time, .issue issuer request, some (.ok (.issued key))⟩
      [.record (.issued identity "" key.kind)]
  | vouched {time : Instant} {token identity : String} :
    Course s ⟨time, .identify token, some (.ok (.identity identity))⟩ []
  /-- A user key gets no id, or is not stored, or is issued. -/
  | unnamed {time : Instant} {token owner : String} {request : Key} {e : Failure}
    (hlogin : IsLogin s.secret time token owner) (hrequest : request.kind = .user) :
    Course s ⟨time, .issue token request, some (.error (.during "issue user key" e))⟩
      [.freshId (.error e)]
  | unsaved {time : Instant} {token owner id : String} {request : Key} {e : Failure}
    (hlogin : IsLogin s.secret time token owner) (hrequest : request.kind = .user) :
    Course s ⟨time, .issue token request, some (.error (.during "issue user key" e))⟩
      [.freshId (.ok id), .save (recordOf (s.userKeyOf owner id request)) (.error e)]
  | issued {time : Instant} {token owner id saved : String} {request : Key}
    (hlogin : IsLogin s.secret time token owner) (hrequest : request.kind = .user) :
    Course s ⟨time, .issue token request, some (.ok (.issued (s.userKeyOf owner id request)))⟩
      [.freshId (.ok id), .save (recordOf (s.userKeyOf owner id request)) (.ok saved),
        .record (.issued owner id .user)]
  | unrevoked {time : Instant} {token owner id : String} {e : Failure}
    (hlogin : IsLogin s.secret time token owner) :
    Course s ⟨time, .revoke token id, some (.error (.during "revoke key" e))⟩
      [.remove owner id (.error e)]
  | revoked {time : Instant} {token owner id : String}
    (hlogin : IsLogin s.secret time token owner) :
    Course s ⟨time, .revoke token id, some (.ok .revoked)⟩
      [.remove owner id (.ok ()), .record (.revoked owner id)]
  /-- A record is not there, or not readable. -/
  | unread {time : Instant} {call : Call} {owner id : String} {e f : Failure}
    (huse : Uses s owner id ⟨time, call, some (.error f)⟩)
    (hf : f = e ∨ f = .during call.operation e) :
    Course s ⟨time, call, some (.error f)⟩ [.retrieve owner id (.error e)]
  | identified {time : Instant} {token owner id : String} {key : Key}
    (huse : Uses s owner id ⟨time, .identify token, some (.ok (.identity owner))⟩)
    (hlive : ¬ key.isExpiredAt time = true) :
    Course s ⟨time, .identify token, some (.ok (.identity owner))⟩ [.retrieve owner id (.ok key)]
  | retrieved {time : Instant} {token owner id : String} {key : Key}
    (huse : Uses s owner id ⟨time, .retrieve token id, some (.ok (.retrieved key))⟩)
    (hlive : ¬ key.isExpiredAt time = true) :
    Course s ⟨time, .retrieve token id, some (.ok (.retrieved key))⟩
      [.retrieve owner id (.ok key), .record (.retrieved owner id)]
  | expired {time : Instant} {call : Call} {owner id : String} {key : Key} {f : Failure}
    {answer : Except Failure Unit} (huse : Uses s owner id ⟨time, call, some (.error f)⟩)
    (hexpired : key.isExpiredAt time = true) (hkind : f.kind = .unauthorized)
    (hf : f.denyReason? = some .keyExpired) :
    Course s ⟨time, call, some (.error f)⟩
      (.retrieve owner id (.ok key) :: Exchange.expiry call.operation owner id answer)

/-! ## Runs of the parts of a plan -/

variable {s : KeyService} {now : Instant} {trace : List Exchange}

theorem exec_replying {α : Type} {p : Plan (Result α)} {reply : α → Reply}
    {answer : Option (Result Reply)} (h : Exec (Call.replying p reply) trace answer) :
    ∃ r, Exec p trace r ∧ answer = r.map (·.map reply) := by
  rcases h.of_bind with ⟨r, first, rest, rfl, hp, hdone⟩ | ⟨hp, rfl⟩
  · obtain ⟨rfl, rfl⟩ := Plan.exec_done_iff.mp hdone
    exact ⟨some r, by simpa using hp, rfl⟩
  · exact ⟨none, hp, rfl⟩

theorem exec_deny {α : Type} {op : String} {reason : DenyReason} {r : Option (Result α)}
    (h : Exec (KeyService.deny op reason) trace r) :
    trace = [.record (.denied op reason)] ∧ r = some (.error (.unauthorized reason)) := by
  obtain ⟨rest, rfl, hrest⟩ := Plan.exec_record_iff.mp h
  obtain ⟨rfl, rfl⟩ := Plan.exec_done_iff.mp hrest
  exact ⟨rfl, rfl⟩

/-- A rejected login key is all there is to the operation that needs one. -/
theorem exec_denied {α : Type} {op : String} {reason : DenyReason}
    {f : Result String → Plan (Result α)} {r : Option (Result α)}
    (hf : ∀ e, f (.error e) = .done (.error (.during op e)))
    (h : Exec (KeyService.deny op reason >>= f) trace r) :
    trace = [.record (.denied op reason)] ∧
      r = some (.error (.during op (.unauthorized reason))) := by
  simp only [KeyService.deny, Plan.bind_eq, Plan.bind, hf] at h
  obtain ⟨rest, rfl, hrest⟩ := Plan.exec_record_iff.mp h
  obtain ⟨rfl, rfl⟩ := Plan.exec_done_iff.mp hrest
  exact ⟨rfl, rfl⟩

/-- The deletion of an expired record, whatever comes of it, is followed by a rejection. -/
theorem exec_removeExpired {α : Type} {owner id op : String} {e : Failure} {r : Option (Result α)}
    (h : Exec (KeyService.removeExpired owner id
      (.record (.denied op .keyExpired) (.done (.error e)))) trace r) :
    (∃ answer, trace = Exchange.expiry op owner id answer) ∧ r = some (.error e) := by
  have hend : ∀ {rest}, Exec (.record (.expired owner id)
      (.record (.denied op .keyExpired) (.done (.error e : Result α)))) rest r →
      rest = [.record (.expired owner id), .record (.denied op .keyExpired)] ∧
        r = some (.error e) := by
    intro rest hrest
    obtain ⟨_, rfl, hdenied⟩ := Plan.exec_record_iff.mp hrest
    obtain ⟨_, rfl, hdone⟩ := Plan.exec_record_iff.mp hdenied
    obtain ⟨rfl, rfl⟩ := Plan.exec_done_iff.mp hdone
    exact ⟨rfl, rfl⟩
  cases h with
  | @remove _ _ _ answer _ _ h =>
    cases answer with
    | ok _ =>
      obtain ⟨rfl, hr⟩ := hend h
      exact ⟨⟨.ok (), rfl⟩, hr⟩
    | error cause =>
      cases h with
      | notify h =>
        obtain ⟨rfl, hr⟩ := hend h
        exact ⟨⟨.error cause, rfl⟩, hr⟩

/-! ## Runs of a call -/

theorem course_sessionKey {issuer subject : String} {span : Span} {request : Key}
    {r : Option (Result Key)} (hrequest : request.kind ≠ .user)
    (hsubject : IssuedFor s.secret now issuer request.kind subject)
    (h : Exec (s.sessionKey subject span request) trace r) :
    Course s ⟨now, .issue issuer request, r.map (·.map .issued)⟩ trace := by
  rw [KeyService.sessionKey] at h
  split at h
  · cases h
    exact .crashed hrequest
  · obtain ⟨rest, rfl, hrest⟩ := Plan.exec_record_iff.mp h
    obtain ⟨rfl, rfl⟩ := Plan.exec_done_iff.mp hrest
    exact .handedOut hrequest rfl rfl hsubject

theorem course_userKey {token : String} {request : Key} {r : Option (Result Key)}
    (hrequest : request.kind = .user) (h : Exec (s.userKey now token request) trace r) :
    Course s ⟨now, .issue token request, r.map (·.map .issued)⟩ trace := by
  rcases KeyService.login_cases s now "issue user key" token with
    ⟨owner, hlogin, hplan⟩ | ⟨-, reason, hplan⟩
  · simp only [KeyService.userKey, hplan, Plan.bind_eq, Plan.bind] at h
    cases h with
    | @freshId _ answer _ _ h =>
      cases answer with
      | error e =>
        obtain ⟨rfl, rfl⟩ := Plan.exec_done_iff.mp h
        exact .unnamed hlogin hrequest
      | ok id =>
        cases h with
        | @save _ _ answer _ _ h =>
          cases answer with
          | error e =>
            obtain ⟨rfl, rfl⟩ := Plan.exec_done_iff.mp h
            exact .unsaved hlogin hrequest
          | ok saved =>
            obtain ⟨rest, rfl, hrest⟩ := Plan.exec_record_iff.mp h
            obtain ⟨rfl, rfl⟩ := Plan.exec_done_iff.mp hrest
            have hkind : (s.userKeyOf owner id request).kind = .user := hrequest
            rw [hkind]
            exact .issued hlogin hrequest
  · rw [KeyService.userKey, hplan] at h
    obtain ⟨rfl, rfl⟩ := exec_denied (fun _ => rfl) h
    have hop : (Call.issue token request).operation = "issue user key" := by
      rw [Call.operation, hrequest]
      rfl
    rw [← hop]
    exact .denied rfl rfl (KeyService.reason_of_login hplan)

theorem course_issue {issuer : String} {request : Key} {r : Option (Result Key)}
    (h : Exec (s.issue now issuer request) trace r) :
    Course s ⟨now, .issue issuer request, r.map (·.map .issued)⟩ trace := by
  rw [KeyService.issue] at h
  split at h
  · obtain ⟨rfl, rfl⟩ := Plan.exec_done_iff.mp h
    exact .refused rfl
  · cases hkind : request.kind with
    | login =>
      simp only [hkind] at h
      split at h
      · obtain ⟨rfl, rfl⟩ := Plan.exec_done_iff.mp h
        exact .refused rfl
      · exact course_sessionKey (by simp [hkind]) (by simp [IssuedFor, hkind]) h
    | reset =>
      simp only [hkind] at h
      rcases KeyService.login_cases s now "issue reset key" issuer with
        ⟨owner, hlogin, hplan⟩ | ⟨-, reason, hplan⟩
      · simp only [hplan, Plan.bind_eq, Plan.bind] at h
        exact course_sessionKey (by simp [hkind]) (by simpa [IssuedFor, hkind] using hlogin) h
      · rw [hplan] at h
        obtain ⟨rfl, rfl⟩ := exec_denied (fun _ => rfl) h
        have hop : (Call.issue issuer request).operation = "issue reset key" := by
          rw [Call.operation, hkind]
          rfl
        rw [← hop]
        exact .denied rfl rfl (KeyService.reason_of_login hplan)
    | user =>
      simp only [hkind] at h
      exact course_userKey hkind h

theorem course_revoke {token id : String} {r : Option (Result Unit)}
    (h : Exec (s.revoke now token id) trace r) :
    Course s ⟨now, .revoke token id, r.map (·.map fun _ => .revoked)⟩ trace := by
  rw [KeyService.revoke] at h
  split at h
  · obtain ⟨rfl, rfl⟩ := Plan.exec_done_iff.mp h
    exact .refused rfl
  · rcases KeyService.login_cases s now "revoke key" token with
      ⟨owner, hlogin, hplan⟩ | ⟨-, reason, hplan⟩
    · simp only [hplan, Plan.bind_eq, Plan.bind] at h
      cases h with
      | @remove _ _ _ answer _ _ h =>
        cases answer with
        | error e =>
          obtain ⟨rfl, rfl⟩ := Plan.exec_done_iff.mp h
          exact .unrevoked hlogin
        | ok _ =>
          obtain ⟨rest, rfl, hrest⟩ := Plan.exec_record_iff.mp h
          obtain ⟨rfl, rfl⟩ := Plan.exec_done_iff.mp hrest
          exact .revoked hlogin
    · rw [hplan] at h
      obtain ⟨rfl, rfl⟩ := exec_denied (fun _ => rfl) h
      exact .denied rfl rfl (KeyService.reason_of_login hplan)

theorem course_retrieve {token id : String} {r : Option (Result Key)}
    (h : Exec (s.retrieve now token id) trace r) :
    Course s ⟨now, .retrieve token id, r.map (·.map .retrieved)⟩ trace := by
  rw [KeyService.retrieve] at h
  split at h
  · obtain ⟨rfl, rfl⟩ := Plan.exec_done_iff.mp h
    exact .refused rfl
  · next hid =>
    have hne : id ≠ "" := fun he => hid (String.isEmpty_iff.mpr he)
    rcases KeyService.login_cases s now "retrieve key" token with
      ⟨owner, hlogin, hplan⟩ | ⟨-, reason, hplan⟩
    · simp only [hplan, Plan.bind_eq, Plan.bind] at h
      cases h with
      | @retrieve _ _ _ answer _ _ h =>
        cases answer with
        | error e =>
          obtain ⟨rfl, rfl⟩ := Plan.exec_done_iff.mp h
          exact .unread ⟨rfl, hne, hlogin⟩ (.inr rfl)
        | ok key =>
          dsimp only at h
          split at h
          · next hexpired =>
            obtain ⟨⟨answer, rfl⟩, rfl⟩ := exec_removeExpired h
            exact .expired ⟨rfl, hne, hlogin⟩ hexpired rfl rfl
          · next hlive =>
            obtain ⟨rest, rfl, hrest⟩ := Plan.exec_record_iff.mp h
            obtain ⟨rfl, rfl⟩ := Plan.exec_done_iff.mp hrest
            exact .retrieved ⟨rfl, hne, hlogin⟩ hlive
    · rw [hplan] at h
      obtain ⟨rfl, rfl⟩ := exec_denied (fun _ => rfl) h
      exact .denied rfl rfl (KeyService.reason_of_login hplan)

theorem course_identifyClaims {token : String} {claims : Claims} {r : Option (Result String)}
    (hclaims : Token.Carries s.secret token claims)
    (h : Exec (KeyService.identifyClaims now "identify" claims) trace r) :
    Course s ⟨now, .identify token, r.map (·.map .identity)⟩ trace := by
  rw [KeyService.identifyClaims] at h
  split at h
  · next hkind =>
    have huse : ∀ answer, Uses s claims.issuer claims.id ⟨now, .identify token, answer⟩ :=
      fun _ => ⟨claims, hclaims, hkind, rfl, rfl⟩
    cases h with
    | @retrieve _ _ _ answer _ _ h =>
      cases answer with
      | error e =>
        obtain ⟨rfl, rfl⟩ := Plan.exec_done_iff.mp h
        exact .unread (huse _) (.inl rfl)
      | ok key =>
        dsimp only at h
        split at h
        · next hexpired =>
          obtain ⟨⟨answer, rfl⟩, rfl⟩ := exec_removeExpired h
          exact .expired (huse _) hexpired rfl rfl
        · next hlive =>
          obtain ⟨rfl, rfl⟩ := Plan.exec_done_iff.mp h
          exact .identified (huse _) hlive
  · split at h
    · obtain ⟨rfl, rfl⟩ := exec_deny h
      exact .denied rfl rfl (by simp)
    · obtain ⟨rfl, rfl⟩ := Plan.exec_done_iff.mp h
      exact .vouched
  · split at h
    · obtain ⟨rfl, rfl⟩ := exec_deny h
      exact .denied rfl rfl (by simp)
    · obtain ⟨rfl, rfl⟩ := Plan.exec_done_iff.mp h
      exact .vouched
  · obtain ⟨rfl, rfl⟩ := exec_deny h
    exact .denied rfl rfl (by simp)

theorem course_identify {token : String} {r : Option (Result String)}
    (h : Exec (s.identify now token) trace r) :
    Course s ⟨now, .identify token, r.map (·.map .identity)⟩ trace := by
  rw [KeyService.identify] at h
  split at h
  · next claims hparse => exact course_identifyClaims (Token.parse_eq_ok_iff.mp hparse).1 h
  · next claims hparse =>
    split at h
    · exact course_identifyClaims (Token.parse_eq_expired_iff.mp hparse).1 h
    · obtain ⟨rfl, rfl⟩ := exec_deny h
      exact .denied rfl rfl (by simp)
  · obtain ⟨rfl, rfl⟩ := exec_deny h
    exact .denied rfl rfl (TokenFault.reason_ne_keyExpired _)

/-- **Every run of a call takes one of the courses.** -/
theorem course_of_exec {e : Entry} (h : Exec (e.call.plan s e.time) trace e.answer) :
    e.Course s trace := by
  obtain ⟨now, call, answer⟩ := e
  cases call with
  | issue issuer request =>
    obtain ⟨r, hr, rfl⟩ := exec_replying h
    exact course_issue hr
  | revoke token id =>
    obtain ⟨r, hr, rfl⟩ := exec_replying h
    exact course_revoke hr
  | retrieve token id =>
    obtain ⟨r, hr, rfl⟩ := exec_replying h
    exact course_retrieve hr
  | identify token =>
    obtain ⟨r, hr, rfl⟩ := exec_replying h
    exact course_identify hr

/-! ## What comes before what in a call -/

namespace Course

variable {e : Entry} {past future : List Exchange}

/-- A call saves the record of the key that it was given an id for, once. If the store takes it, the
key is what the call answers. -/
theorem of_save {record : Key} {answer : Except Failure String}
    (h : e.Course s (past ++ .save record answer :: future)) :
    past = [.freshId (.ok record.id)] ∧ ∃ token request, e.call = .issue token request ∧
      request.kind = .user ∧ record = recordOf (s.userKeyOf record.issuer record.id request) ∧
      (answer = .ok record.id →
        e.answer = some (.ok (.issued (s.userKeyOf record.issuer record.id request)))) := by
  generalize htrace : past ++ .save record answer :: future = trace at h
  have hmem : .save record answer ∈ trace := by simp [← htrace]
  cases h with
  | @unsaved time token owner id request e hlogin hrequest =>
    obtain ⟨rest, rfl, rfl, ⟨rfl, rfl⟩, -⟩ : ∃ rest, past = .freshId (.ok id) :: rest ∧ rest = [] ∧
        (record = recordOf (s.userKeyOf owner id request) ∧ answer = .error e) ∧ future = [] := by
      simpa [List.append_eq_cons_iff, List.cons_eq_append_iff] using htrace
    exact ⟨rfl, token, request, rfl, hrequest, rfl, nofun⟩
  | @issued time token owner id saved request hlogin hrequest =>
    obtain ⟨rest, rfl, rfl, ⟨rfl, rfl⟩, -⟩ : ∃ rest, past = .freshId (.ok id) :: rest ∧ rest = [] ∧
        (record = recordOf (s.userKeyOf owner id request) ∧ answer = .ok saved) ∧
          future = [.record (.issued owner id .user)] := by
      simpa [List.append_eq_cons_iff, List.cons_eq_append_iff] using htrace
    exact ⟨rfl, token, request, rfl, hrequest, rfl, fun _ => rfl⟩
  | @expired _ _ _ _ _ _ removed => cases removed <;> simp [Exchange.expiry] at hmem
  | _ => simp at hmem

/-- A call deletes a record because the owner of the record revokes it, or because it has itself
read the record and found it expired. -/
theorem of_remove {owner id : String} {answer : Except Failure Unit}
    (h : e.Course s (past ++ .remove owner id answer :: future)) :
    (past = [] ∧ ∃ token, e.call = .revoke token id ∧ IsLogin s.secret e.time token owner ∧
        (answer = .ok () → e.answer = some (.ok .revoked))) ∨
      ∃ key f, past = [.retrieve owner id (.ok key)] ∧ e.Uses s owner id ∧
        key.isExpiredAt e.time = true ∧ e.answer = some (.error f) ∧
          f.denyReason? = some .keyExpired := by
  generalize htrace : past ++ .remove owner id answer :: future = trace at h
  have hmem : .remove owner id answer ∈ trace := by simp [← htrace]
  cases h with
  | @unrevoked time token owner' id' e hlogin =>
    obtain ⟨rfl, ⟨rfl, rfl, rfl⟩, -⟩ : past = [] ∧
        (owner = owner' ∧ id = id' ∧ answer = .error e) ∧ future = [] := by
      simpa [List.append_eq_cons_iff] using htrace
    exact .inl ⟨rfl, token, rfl, hlogin, nofun⟩
  | @revoked time token owner' id' hlogin =>
    obtain ⟨rfl, ⟨rfl, rfl, rfl⟩, -⟩ : past = [] ∧
        (owner = owner' ∧ id = id' ∧ answer = .ok ()) ∧
          future = [.record (.revoked owner' id')] := by
      simpa [List.append_eq_cons_iff, List.cons_eq_append_iff] using htrace
    exact .inl ⟨rfl, token, rfl, hlogin, fun _ => rfl⟩
  | @expired time call owner' id' key f removed huse hexpired hkind hf =>
    obtain ⟨-, h⟩ | ⟨rest, rfl, hrest⟩ := List.append_eq_cons_iff.mp htrace
    · cases h
    · obtain ⟨rfl, h⟩ | ⟨rest, rfl, htail⟩ := List.append_eq_cons_iff.mp hrest.symm
      · cases h
        exact .inr ⟨key, f, rfl, huse, hexpired, rfl, hf⟩
      · -- nothing is deleted after that
        have hlate := congrArg (fun l => Exchange.remove owner id answer ∈ l) htail
        cases removed <;> simp at hlate
  | _ => simp at hmem

/-- The operator hears about a record only if it could not be deleted. -/
theorem of_notify {notice : Notice} (h : e.Course s (past ++ .notify notice :: future)) :
    ∃ owner id cause, .remove owner id (.error cause) ∈ past := by
  generalize htrace : past ++ .notify notice :: future = trace at h
  have hmem : .notify notice ∈ trace := by simp [← htrace]
  cases h with
  | @expired time call owner id key f removed huse hexpired hkind hf =>
    cases removed with
    | ok _ => simp [Exchange.expiry] at hmem
    | error cause =>
      obtain ⟨-, h⟩ | ⟨rest, rfl, hrest⟩ := List.append_eq_cons_iff.mp htrace
      · cases h
      · obtain ⟨-, h⟩ | ⟨rest, rfl, -⟩ := List.append_eq_cons_iff.mp hrest.symm
        · cases h
        · exact ⟨owner, id, cause, by simp⟩
  | _ => simp at hmem

/-- A user key that a call answers with was stored by it. -/
theorem save_mem {trace : List Exchange} {key : Key} (h : e.Course s trace)
    (hanswer : e.answer = some (.ok (.issued key))) (hkind : key.kind = .user) :
    ∃ saved, .save (recordOf key) (.ok saved) ∈ trace := by
  cases h with
  | handedOut hrequest hkey =>
    cases hanswer
    exact absurd (hkey.symm.trans hkind) hrequest
  | @issued time token owner id saved request hlogin hrequest =>
    cases hanswer
    exact ⟨saved, by simp⟩
  | _ => cases hanswer

end Course

end Entry
end Gatehouse
