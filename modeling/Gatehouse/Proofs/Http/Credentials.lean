import Gatehouse.Proofs.Http.Endpoints
import Gatehouse.Proofs.Keys.Refusal
import Gatehouse.Proofs.Keys.Validity
import Gatehouse.Proofs.Keys.Verdict

/-!
Keys that were got over HTTP. A request that is answered with a new key brought a login key, and the
new key is a reset or user key (`exec_of_created`, `KeyService.minted_of_issue`). A request that is
to manage keys and brings no login key is turned away, whatever the store holds or answers
(`turnedAway_of_not_isLogin`). So no key that was got over HTTP manages keys
(`minted_keys_manage_nothing`).
-/

namespace Gatehouse

open KeyService (Result)
open Plan (Exec)

/-! ## Issued keys -/

namespace KeyService

variable {s : KeyService} {now : Instant} {token : String} {request key : Key}
  {trace : List Exchange}

/-- The token of a session key carries the claims of the session. -/
theorem carries_of_sessionKey {subject : String} {span : Span}
    (h : Exec (s.sessionKey subject span request) trace (some (.ok key)))
    (hissuedAt : request.issuedAt.InCalendar) :
    ∃ expiry, Token.Carries s.secret key.secret (s.sessionClaims subject request expiry) := by
  unfold sessionKey at h
  split at h
  · cases h
  · next t ht =>
    obtain ⟨rest, rfl, hrest⟩ := Plan.exec_record_iff.mp h
    obtain ⟨-, hkey⟩ := Plan.exec_done_iff.mp hrest
    cases hkey
    have hexpiry : t.floor.InCalendar :=
      show t.InCalendar from Instant.inCalendar_of_add? ht
    exact ⟨t.floor, carries_sessionKeyOf hissuedAt hexpiry⟩

/-- The token of a user key carries the claims of the record, under whatever id it got. -/
theorem carries_of_userKey {owner : String} (hlogin : IsLogin s.secret now token owner)
    (h : Exec (s.userKey now token request) trace (some (.ok key)))
    (hissuedAt : request.issuedAt.InCalendar)
    (hexpiresAt : ∀ x, request.expiresAt = some x → x.InCalendar) :
    ∃ id, Token.Carries s.secret key.secret
      (userClaims owner id request.issuedAt request.expiresAt) := by
  simp only [userKey, login_of_isLogin "issue user key" hlogin] at h
  cases h with
  | @freshId _ answer _ _ h =>
    cases answer with
    | error e => cases h
    | ok id =>
      cases h with
      | @save _ _ answer _ _ h =>
        cases answer with
        | error e => cases h
        | ok saved =>
          obtain ⟨rest, rfl, hrest⟩ := Plan.exec_record_iff.mp h
          obtain ⟨-, hkey⟩ := Plan.exec_done_iff.mp hrest
          cases hkey
          exact ⟨id, Token.carries_issue s.secret (inRange_userClaims hissuedAt hexpiresAt)⟩

/-- The holder of a login key gets a key whose token is of the kind asked for. Nobody else gets
one. -/
theorem minted_of_issue (h : Exec (s.issue now token request) trace (some (.ok key)))
    (hkind : request.kind ≠ .login) (hissuedAt : request.issuedAt.InCalendar)
    (hexpiresAt : ∀ x, request.expiresAt = some x → x.InCalendar) :
    ∃ owner claims, IsLogin s.secret now token owner ∧ Token.Carries s.secret key.secret claims ∧
      claims.kind = some request.kind := by
  have hnanos : request.issuedAt.nanos ≠ 0 := by
    intro hzero
    rw [issue, if_pos hzero] at h
    cases h
  by_cases hlogin : ∃ owner, IsLogin s.secret now token owner
  · obtain ⟨owner, hlogin⟩ := hlogin
    rw [issue, if_neg hnanos] at h
    cases hk : request.kind with
    | login => exact absurd hk hkind
    | reset =>
      simp only [hk, login_of_isLogin "issue reset key" hlogin] at h
      obtain ⟨expiry, hcarries⟩ := carries_of_sessionKey h hissuedAt
      exact ⟨owner, _, hlogin, hcarries, congrArg some hk⟩
    | user =>
      simp only [hk] at h
      obtain ⟨id, hcarries⟩ := carries_of_userKey hlogin h hissuedAt hexpiresAt
      exact ⟨owner, _, hlogin, hcarries, rfl⟩
  · obtain ⟨reason, hplan⟩ := issue_of_not_isLogin hkind hnanos fun owner h => hlogin ⟨owner, h⟩
    rw [hplan] at h
    cases h with
    | record h => cases h

end KeyService

namespace Http

variable {s : KeyService} {now : Instant} {r : Request} {answer : Response}
  {trace : List Exchange}

/-! ## What an order comes to -/

theorem issueTime_nanos (now : Instant) : (KeyService.issueTime now).nanos ≠ 0 := by
  unfold KeyService.issueTime
  split
  · exact Nat.one_ne_zero
  · next h => exact h

theorem issueTime_inCalendar (h : now.InCalendar) : (KeyService.issueTime now).InCalendar := by
  unfold KeyService.issueTime
  split <;> exact h

/-- No login keys are asked for over HTTP, and no dates outside the calendar. -/
theorem request_of_order {o : IssueOrder} {t : Instant} {request : Key}
    (h : o.request t = .ok request) :
    request.kind ≠ .login ∧ request.issuedAt = t ∧
      ∀ x, request.expiresAt = some x → x.InCalendar := by
  unfold IssueOrder.request at h
  split at h
  · cases h
  · cases h
  · cases h
    exact ⟨by simp, rfl, by simp⟩
  · split at h
    · cases h
      exact ⟨by simp, rfl, by simp⟩
    · split at h
      · next hadd =>
        cases h
        refine ⟨by simp, rfl, fun x hx => ?_⟩
        cases hx
        exact Instant.inCalendar_of_add? (Instant.add?_of_addSeconds? hadd)
      · cases h

/-! ## Requests that bring no login key -/

/-- The request is to issue, fetch or revoke a key. -/
inductive Request.Manages (r : Request) : Prop where
  | issue (hmethod : r.method = .post) (hroute : Route.ofPath r.path = some .keys)
  | fetch (id : List Char) (hmethod : r.method = .get)
    (hroute : Route.ofPath r.path = some (.key id))
  | revoke (id : List Char) (hmethod : r.method = .delete)
    (hroute : Route.ofPath r.path = some (.key id))

/-- The answer to a credential that is not good for what is asked. -/
def forbidden : Response := refusal 403 "unauthorized" "unauthorized access"

/-- The request comes to nothing but a refusal: one that is recorded, or one before the credential
was looked at. The store is not asked for anything. -/
inductive TurnedAway (r : Request) : Plan Response → Prop where
  | denied (op : String) (reason : DenyReason) :
    TurnedAway r (.record (.denied op reason) (.done forbidden))
  | misunderstood {answer : Response} (hstatus : answer.status = 400) : TurnedAway r (.done answer)
  | tooLarge (hmethod : r.method = .post) (hbody : r.isTooLarge = true) :
    TurnedAway r (.done .tooLarge)

/-- On any backend a request that is turned away is answered, and nothing is changed. -/
theorem TurnedAway.run {p : Plan Response} (h : TurnedAway r p) (b : Plan.Backend) :
    (p.run b).2.1 = b ∧ ∃ refusal, (p.run b).1 = some refusal ∧
      (refusal = forbidden ∨ refusal.status = 400 ∨ refusal.status = 413) := by
  cases h with
  | denied op reason => exact ⟨rfl, _, rfl, .inl rfl⟩
  | misunderstood hstatus => exact ⟨rfl, _, rfl, .inr (.inl hstatus)⟩
  | tooLarge => exact ⟨rfl, _, rfl, .inr (.inr rfl)⟩

theorem turnedAway_of_rejected {α : Type} {p : Plan (Result α)} {op : String}
    {f : Result α → Plan Response} (hp : ∃ reason, p = KeyService.rejected α op reason)
    (hf : ∀ e, f (.error e) = failed e) : TurnedAway r (p >>= f) := by
  obtain ⟨reason, rfl⟩ := hp
  have hplan : KeyService.rejected α op reason >>= f =
      .record (.denied op reason) (.done forbidden) := by
    show Plan.record _ (f (.error _)) = _
    rw [hf]
    rfl
  rw [hplan]
  exact .denied op reason

theorem turnedAway_withId {id : List Char} {answer : String → Plan Response}
    (h : ∀ id, TurnedAway r (answer id)) : TurnedAway r (withId id answer) := by
  unfold withId
  split
  · exact h _
  · exact .misunderstood rfl

/-- A request that is to manage keys and brings no login key is turned away. -/
theorem turnedAway_of_not_isLogin (hr : r.Manages)
    (h : ∀ identity, ¬ IsLogin s.secret now r.credential identity) :
    TurnedAway r (respond s now r) := by
  cases hr with
  | issue hmethod hroute =>
    simp only [respond, hroute, hmethod, Route.answer]
    -- The size of the body, the body and the order in it are looked at before the credential.
    split
    · next hbody => exact .tooLarge hmethod hbody
    unfold issueKey
    split
    · exact .misunderstood rfl
    · split
      · next hrequest => exact .misunderstood (status_of_refused_order hrequest)
      · next hrequest =>
        obtain ⟨hkind, htime, -⟩ := request_of_order hrequest
        exact turnedAway_of_rejected
          (KeyService.issue_of_not_isLogin hkind (htime ▸ issueTime_nanos now) h) fun _ => rfl
  | fetch id hmethod hroute =>
    simp only [respond, hroute, hmethod, Route.answer]
    refine turnedAway_withId fun id => ?_
    by_cases hid : id = ""
    · subst hid
      have hplan : showKey s now r.credential "" =
          .done (.ofFailure (.malformedEntity "empty key id")) := rfl
      rw [hplan]
      exact .misunderstood rfl
    · exact turnedAway_of_rejected (KeyService.retrieve_of_not_isLogin hid h) fun _ => rfl
  | revoke id hmethod hroute =>
    simp only [respond, hroute, hmethod, Route.answer]
    refine turnedAway_withId fun id => ?_
    by_cases hid : id = ""
    · subst hid
      have hplan : revokeKey s now r.credential "" =
          .done (.ofFailure (.malformedEntity "empty key id")) := rfl
      rw [hplan]
      exact .misunderstood rfl
    · exact turnedAway_of_rejected (KeyService.revoke_of_not_isLogin hid h) fun _ => rfl

/-! ## Answers with a new key -/

/-- No run of the plan ends in the answer `201 Created`. -/
def NeverCreated (p : Plan Response) : Prop :=
  ∀ trace answer, Exec p trace (some answer) → answer.status ≠ 201

theorem neverCreated_done (h : answer.status ≠ 201) : NeverCreated (.done answer) :=
  Plan.always_done h

theorem statusOf_ne_created (kind : FailureKind) : statusOf kind ≠ 201 := by
  cases kind <;> decide

theorem common_neverCreated : Common fun answer => answer.status ≠ 201 where
  failure e := statusOf_ne_created e.kind
  plain _ hstatus _ := fun hcreated => hstatus (by simp [hcreated])

/-- Only the issue of a key is answered with `201 Created`. -/
theorem neverCreated_answer (s : KeyService) (now : Instant) (r : Request) {route : Route}
    {method : Method} (h : ¬ (route = .keys ∧ method = .post)) :
    NeverCreated (route.answer s now r method) :=
  always_answer common_neverCreated h

theorem neverCreated_head {p : Plan Response} (h : NeverCreated p) :
    NeverCreated (p >>= fun answer => .done answer.withoutBody) :=
  Plan.Always.bind h fun _ hanswer => neverCreated_done hanswer

/-- Behind every `201 Created` there is a key that was issued. -/
theorem exec_of_issueKey {credential : String} {body : List UInt8}
    (h : Exec (issueKey s now credential body) trace (some answer))
    (hcreated : answer.status = 201) : ∃ order request issuing key,
      IssueOrder.request order (KeyService.issueTime now) = .ok request ∧
        Exec (s.issue now credential request) issuing (some (.ok key)) ∧ answer = issued key := by
  unfold issueKey at h
  split at h
  · exact absurd hcreated (neverCreated_done (by simp [misunderstood, refusal]) _ _ h)
  next order _ =>
  split at h
  · next hrequest =>
    have hstatus := status_of_refused_order hrequest
    exact absurd hcreated (neverCreated_done (by omega) _ _ h)
  · next request hrequest =>
    rcases h.of_bind with ⟨result, issuing, rest, -, hissue, hrest⟩ | ⟨-, hnone⟩
    · cases result with
      | error e => exact absurd hcreated (always_failed common_neverCreated e _ _ hrest)
      | ok key =>
        obtain ⟨-, heq⟩ := Plan.exec_done_iff.mp hrest
        cases heq
        exact ⟨order, request, issuing, key, hrequest, hissue, rfl⟩
    · cases hnone

/-- `201 Created` answers the order of a key only. -/
theorem exec_of_created (h : Exec (respond s now r) trace (some answer))
    (hcreated : answer.status = 201) : r.method = .post ∧ Route.ofPath r.path = some .keys ∧
      Exec (issueKey s now r.credential r.body) trace (some answer) := by
  unfold respond at h
  split at h
  · exact absurd hcreated (neverCreated_done (by decide) _ _ h)
  next route hroute =>
  split at h
  · exact absurd hcreated (neverCreated_head (neverCreated_answer s now r (by simp)) _ _ h)
  by_cases hkeys : route = .keys ∧ r.method = .post
  · obtain ⟨rfl, hmethod⟩ := hkeys
    rw [hmethod] at h
    simp only [Route.answer] at h
    split at h
    · exact absurd hcreated (neverCreated_done (by decide) _ _ h)
    · exact ⟨hmethod, hroute, h⟩
  · exact absurd hcreated (neverCreated_answer s now r hkeys _ _ h)

theorem route_of_target (h : r.target = "/keys") : Route.ofPath r.path = some .keys := by
  rw [Request.path, h]
  decide

/-- What the holder of a login key gets for an empty body. -/
def userRequest (now : Instant) : Key := ⟨"", .user, "", "", KeyService.issueTime now, none⟩

/-- The holder of a login key gets a user key, if there is an id for it and it is stored. -/
theorem created_of_isLogin {b named stored : Plan.Backend} {owner id saved : String}
    (hmethod : r.method = .post) (hroute : Route.ofPath r.path = some .keys) (hbody : r.body = [])
    (hlogin : IsLogin s.secret now r.credential owner) (hid : b.freshId = (.ok id, named))
    (hsave : named.save (KeyService.recordOf (s.userKeyOf owner id (userRequest now))) =
      (.ok saved, stored)) :
    ((respond s now r).run b).1 = some (issued (s.userKeyOf owner id (userRequest now))) := by
  have hsmall : r.isTooLarge = false := by
    rw [Request.isTooLarge, hbody]
    rfl
  have hissue : s.issue now r.credential (userRequest now) =
      s.userKey now r.credential (userRequest now) := by
    rw [KeyService.issue]
    exact if_neg (issueTime_nanos now)
  simp only [respond, hroute, hmethod, Route.answer, hsmall, Bool.false_eq_true, if_false, issueKey,
    hbody]
  show ((s.issue now r.credential (userRequest now) >>= _).run b).1 = _
  rw [hissue]
  simp only [KeyService.userKey, KeyService.login_of_isLogin "issue user key" hlogin, Plan.bind_eq,
    Plan.bind, Plan.run, hid, hsave]
  rfl

/-! ## Tokens in requests -/

/-- The token stands in the `Authorization` header, alone or after its scheme, with or without blanks
around that. -/
def Request.Presents (r : Request) (token : String) : Prop :=
  ∃ value, r.header? "authorization" = some value ∧
    (Text.trim value = token.toList ∨ Text.trim value = "Bearer ".toList ++ token.toList)

/-- Tokens are written in the alphabet of base64, with dots between their parts. -/
theorem mem_of_carries {secret token : String} {claims : Claims} {c : Char}
    (h : Token.Carries secret token claims) (hc : c ∈ token.toList) :
    c = '.' ∨ ∃ n < 64, Text.Base64.symbol n = c := by
  obtain ⟨header, payload, signature, ⟨htoken, -⟩, hsigned, hholds⟩ := Token.carries_iff.mp h
  obtain ⟨alg, f, ⟨_, ⟨headerBytes, rfl, -⟩, -⟩, -, rfl⟩ := hsigned
  obtain ⟨_, ⟨payloadBytes, rfl, -⟩, -⟩ := hholds
  rw [htoken, Token.signedText, List.append_assoc, List.cons_append] at hc
  simp only [List.mem_append, List.mem_cons] at hc
  rcases hc with hc | rfl | hc | rfl | hc
  · exact .inr (Text.Base64.exists_of_mem_encode hc)
  · exact .inl rfl
  · exact .inr (Text.Base64.exists_of_mem_encode hc)
  · exact .inl rfl
  · exact .inr (Text.Base64.exists_of_mem_encode hc)

theorem ne_nil_of_carries {secret token : String} {claims : Claims}
    (h : Token.Carries secret token claims) : token.toList ≠ [] := by
  obtain ⟨header, payload, signature, ⟨htoken, -⟩, -⟩ := Token.carries_iff.mp h
  rw [htoken]
  exact List.append_ne_nil_of_right_ne_nil _ (List.cons_ne_nil _ _)

theorem plain_symbol : ∀ n < 64, Text.isBlank (Text.Base64.symbol n) = false ∧
    Request.isVisible (Text.Base64.symbol n) = true := by decide

theorem plain_of_carries {secret token : String} {claims : Claims} {c : Char}
    (h : Token.Carries secret token claims) (hc : c ∈ token.toList) :
    Text.isBlank c = false ∧ Request.isVisible c = true := by
  rcases mem_of_carries h hc with rfl | ⟨n, hn, rfl⟩
  · decide
  · exact plain_symbol n hn

/-- Where a token is presented, it is the credential. -/
theorem credential_of_presents {secret token : String} {claims : Claims}
    (hcarries : Token.Carries secret token claims) (h : r.Presents token) :
    r.credential = token := by
  obtain ⟨value, hvalue, htrim⟩ := h
  have hblank : ' ' ∉ token.toList := by
    intro hc
    have hplain := (plain_of_carries hcarries hc).1
    revert hplain
    decide
  unfold Request.credential
  simp only [hvalue, Option.getD_some]
  rcases htrim with htrim | htrim
  · have hnone : Text.after? "Bearer ".toList token.toList = none := by
      rw [Option.eq_none_iff_forall_ne_some]
      intro rest hrest
      exact hblank (by simp [Text.after?_eq_some_iff.mp hrest])
    rw [htrim, hnone, Option.getD_none, String.ofList_toList]
  · rw [htrim, Text.after?_eq_some_iff.mpr rfl, Option.getD_some, String.ofList_toList]

/-- A token is presented by writing it into the header as it is, or after its scheme. -/
theorem presents_of_header {secret token name scheme : String} {claims : Claims}
    (hcarries : Token.Carries secret token claims) (hscheme : scheme = "" ∨ scheme = "Bearer ")
    (hheader : (r.headers.find? fun h => h.1.toList.map Char.toLower == "authorization".toList) =
      some (name, scheme ++ token)) : r.Presents token := by
  have hplain := fun c => plain_of_carries (c := c) hcarries
  have hvisible : (scheme ++ token).toList.all Request.isVisible = true := by
    rw [String.toList_append, List.all_append, Bool.and_eq_true]
    refine ⟨?_, List.all_eq_true.mpr fun c hc => (hplain c hc).2⟩
    rcases hscheme with rfl | rfl <;> decide
  refine ⟨(scheme ++ token).toList, ?_, ?_⟩
  · unfold Request.header?
    simp only [hheader, hvisible, if_true]
  have hlast : ∀ c ∈ token.toList.getLast?, Text.isBlank c = false := fun c hc =>
    (hplain c (List.mem_of_mem_getLast? hc)).1
  rw [String.toList_append]
  rcases hscheme with rfl | rfl
  · exact .inl (Text.trim_eq_self (fun c hc => (hplain c (List.mem_of_mem_head? hc)).1) hlast)
  · refine .inr (Text.trim_eq_self (by rintro c ⟨⟩; rfl) ?_)
    rwa [List.getLast?_append_of_ne_nil _ (ne_nil_of_carries hcarries)]

/-- A member of the answer. -/
def Response.member? (answer : Response) (name : String) : Option Json :=
  match answer.body with
  | .json (.object members) => members.lookup name
  | _ => none

/-- **No key from the HTTP endpoints manages keys.** A request that is answered with `201 Created` was
the issue of a key and brought a login key. The value in the answer is the token of a reset or user
key. In whatever state of whatever service it is presented later to issue, fetch or revoke a key, the
request is turned away. -/
theorem minted_keys_manage_nothing (hnow : now.InCalendar) {b : Plan.Backend}
    (h : ((respond s now r).run b).1 = some answer) (hcreated : answer.status = 201) :
    (r.method = .post ∧ Route.ofPath r.path = some .keys) ∧
      (∃ owner, IsLogin s.secret now r.credential owner) ∧
      ∃ value claims, answer.member? "value" = some (.text value) ∧
        Token.Carries s.secret value claims ∧
        (claims.kind = some .reset ∨ claims.kind = some .user) ∧
        ∀ (later : KeyService) (time : Instant) (r' : Request), r'.Presents value → r'.Manages →
          TurnedAway r' (respond later time r') := by
  obtain ⟨hexec, -⟩ := Plan.exec_run (respond s now r) b
  rw [h] at hexec
  obtain ⟨hmethod, hroute, hissueKey⟩ := exec_of_created hexec hcreated
  obtain ⟨order, request, issuing, key, hrequest, hissue, rfl⟩ :=
    exec_of_issueKey hissueKey hcreated
  obtain ⟨hkind, htime, hexpiresAt⟩ := request_of_order hrequest
  obtain ⟨owner, claims, hlogin, hcarries, hclaims⟩ := KeyService.minted_of_issue hissue hkind
    (htime ▸ issueTime_inCalendar hnow) hexpiresAt
  refine ⟨⟨hmethod, hroute⟩, ⟨owner, hlogin⟩, key.secret, claims, rfl, hcarries, ?_, ?_⟩
  · rw [hclaims]
    cases hrequestKind : request.kind with
    | login => exact absurd hrequestKind hkind
    | reset => exact .inl rfl
    | user => exact .inr rfl
  · intro later time r' hpresents hmanages
    -- The token shows the same claims under any secret, and these are not those of a login key.
    apply turnedAway_of_not_isLogin hmanages
    rintro identity ⟨claims', hcarries', -, hkind', -⟩
    rw [credential_of_presents hcarries hpresents] at hcarries'
    rw [hcarries'.unique hcarries, hclaims] at hkind'
    exact hkind (Option.some.inj hkind')

/-! ## Single requests -/

/-- A login key of `alice`. -/
def aliceSession : String :=
  Token.issue "secret"
    { subject := "alice", issuedAt := 50, expiresAt := some 36050, kind := some .login }

/-- The order of a user key with it. -/
def aliceOrder : Request := ⟨.post, "/keys", [("Authorization", "Bearer " ++ aliceSession)], []⟩

theorem alice_gets_key :
    let s := KeyService.standard "secret"
    let now : Instant := ⟨100, 9, by decide⟩
    ((respond s now aliceOrder).run { vault := .empty, ids := [.ok "k1"] }).1 =
      some (issued (s.userKeyOf "alice" "k1" (userRequest now))) := by
  intro s now
  have hname : ("Authorization".toList.map Char.toLower == "authorization".toList) = true := by
    decide
  have hsession : Token.Carries "secret" aliceSession _ :=
    Token.carries_issue "secret" ⟨by decide, by decide⟩
  have hcredential : aliceOrder.credential = aliceSession :=
    credential_of_presents hsession
      (presents_of_header hsession (.inr rfl) (List.find?_cons_of_pos hname))
  have hlogin : IsLogin s.secret now aliceOrder.credential "alice" :=
    hcredential ▸ ⟨_, hsession, rfl, rfl, rfl, by decide⟩
  exact created_of_isLogin rfl (route_of_target rfl) rfl hlogin rfl rfl

/-- The user key that `alice` gets does not fetch her records, seconds later or years, whatever the
store holds by then. -/
theorem user_key_fetches_nothing :
    let s := KeyService.standard "secret"
    let now : Instant := ⟨100, 9, by decide⟩
    let b : Plan.Backend := { vault := .empty, ids := [.ok "k1"] }
    ∃ answer value, ((respond s now aliceOrder).run b).1 = some answer ∧ answer.status = 201 ∧
      answer.member? "value" = some (.text value) ∧
      let r : Request := ⟨.get, "/keys/k1", [("authorization", value)], []⟩
      ∀ (later : Instant) (b' : Plan.Backend), ∃ refusal,
        ((respond s later r).run b').1 = some refusal ∧
        (refusal = forbidden ∨ refusal.status = 400 ∨ refusal.status = 413) := by
  intro s now b
  obtain ⟨-, -, value, claims, hvalue, hcarries, -, hturned⟩ :=
    minted_keys_manage_nothing (show now.InCalendar by decide) alice_gets_key rfl
  refine ⟨_, value, alice_gets_key, rfl, hvalue, ?_⟩
  intro r later b'
  have hname : ("authorization".toList.map Char.toLower == "authorization".toList) = true := by
    decide
  have hpresents : r.Presents value :=
    presents_of_header hcarries (.inl rfl) (List.find?_cons_of_pos hname)
  have hroute : Route.ofPath ("/keys/k1".toList.takeWhile fun c => c != '?' && c != '#') =
      some (.key "k1".toList) := by decide
  exact ((hturned s later r hpresents (.fetch "k1".toList rfl hroute)).run b').2

/-- With a body over the limit, the credential is not looked at, and the refusal is neither that of a
rejected credential nor that of a request that is not understood. -/
theorem large_order_is_not_read :
    let s := KeyService.standard "secret"
    let now : Instant := ⟨100, 9, by decide⟩
    let b : Plan.Backend := { vault := .empty, ids := [.ok "k1"] }
    ∃ answer value, ((respond s now aliceOrder).run b).1 = some answer ∧ answer.status = 201 ∧
      answer.member? "value" = some (.text value) ∧
      let r : Request :=
        ⟨.post, "/keys", [("authorization", value)], List.replicate (Request.bodyLimit + 1) 0x20⟩
      ∃ refusal, (((respond s now r).run b).1 = some refusal) ∧ refusal.status = 413 := by
  intro s now b
  refine ⟨_, _, alice_gets_key, rfl, rfl, .tooLarge, ?_, rfl⟩
  have hbody : ∀ value, Request.isTooLarge ⟨.post, "/keys", [("authorization", value)],
      List.replicate (Request.bodyLimit + 1) 0x20⟩ = true := by
    intro value
    rw [Request.isTooLarge, List.length_replicate, decide_eq_true_eq]
    exact Nat.lt_succ_self _
  simp only [respond, route_of_target, Route.answer, hbody, if_true]
  rfl

end Http
end Gatehouse
