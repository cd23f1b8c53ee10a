import Gatehouse.Proofs.Http.Credentials
import Gatehouse.Proofs.Keys.Issuance
import Gatehouse.Proofs.Time.Addition

/-!
User keys that live for a number of seconds. The number is that of the request, anything of 64 bits
(`IssueOrder.ofBody_duration`). The key either lives for exactly so long or is refused, and the end
of the calendar alone decides which (`Instant.addSeconds?_eq_none_iff`). What is granted is kept: in
a store in order there is room for the record, and up to its expiry the value of the key stands for
its owner (`KeyService.identifiesUntil_of_issue`).
-/

namespace Gatehouse

open KeyService (recordOf)

/-! ## How long an issued key is good -/

namespace KeyService

variable {s : KeyService} {now x : Instant} {token owner id : String} {request key : Key}
  {b : Plan.Backend}

/-- Whatever else is called, a use of the key that its owner has not revoked identifies the owner
before the instant, and not from it on. -/
def IdentifiesUntil (s : KeyService) (b : Plan.Backend) (key : Key) (x : Instant) : Prop :=
  ∀ between use last, Serves s b (between ++ [use]) last → use.call = .identify key.secret →
    (∀ e ∈ between, e.time ≤ use.time) → (∀ e ∈ between, ¬ e.Revokes s key.issuer key.id) →
      (use.answer = some (.ok (.identity key.issuer)) ↔ use.time < x)

theorem identifiesUntil_of_issue (hb : b.InOrder) (hkind : request.kind = .user)
    (hissue : ((s.issue now token request).run b).1 = some (.ok key))
    (hissuedAt : key.issuedAt.InCalendar) (hexpiresAt : key.expiresAt = some x)
    (hx : x.InCalendar) : s.IdentifiesUntil ((s.issue now token request).run b).2.1 key x := by
  intro between use last hrun huse hclock hkept
  obtain ⟨hanswer, hstate⟩ := run_replying (s.issue now token request) .issued b
  let issued : Entry := ⟨now, .issue token request, some (.ok (.issued key))⟩
  have hserves : Serves s b (issued :: (between ++ use :: [])) last :=
    .cons (by rw [Call.plan, hanswer, hissue]; rfl) (by rw [Call.plan, hstate]; exact hrun)
  have hexpiry : ∀ x', key.expiresAt = some x' → x'.InCalendar := by
    intro x' hx'
    cases hexpiresAt.symm.trans hx'
    exact hx
  have hexpired : ∀ time, key.isExpiredAt time = true ↔ x ≤ time := by
    intro time
    rw [Key.isExpiredAt_iff, hexpiresAt]
    simp
  rcases answer_of_use hb.ids hb.outage hserves rfl hkind rfl hissuedAt hexpiry huse with
    ⟨⟨e, he, hends⟩, hgone⟩ | ⟨-, hthere⟩
  · -- somebody found the key expired, and the clock has not run backwards since
    have hlate : x ≤ e.time := by
      rcases hends with hrevoked | ⟨-, x', hx', hle⟩
      · exact absurd hrevoked (hkept e he)
      · cases hexpiresAt.symm.trans hx'
        exact hle
    rw [hgone]
    exact iff_of_false (by simp) fun hlive => hlive.2 (Instant.le_trans hlate (hclock e he))
  · rw [hthere, ← Instant.not_le_iff, ← hexpired]
    by_cases hlate : key.isExpiredAt use.time = true
    · simp [hlate]
    · simp [hlate]

end KeyService

namespace Http

open Text (utf8)

variable {s : KeyService} {now x : Instant} {r : Request} {n : Nat} {owner id : String}
  {b : Plan.Backend}

/-! ## The order -/

/-- The body that asks for a user key of so many seconds. -/
def durationBody (n : Nat) : List UInt8 := utf8 (Json.object [("duration", .integer n)]).write

open Json.Read in
/-- Every number of 64 bits can be asked for. -/
theorem IssueOrder.ofBody_duration (hn : n ≤ Text.max64) :
    ofBody (durationBody n) = .ok ⟨none, some n⟩ := by
  have hread : Json.Read.optional (natural Text.max64) (Json.integer n).node = .ok (some n) :=
    optional_eq_some_iff.mpr ⟨nofun, natural_eq_ok_iff.mpr ⟨rfl, hn⟩⟩
  have hfills : Fills fields (Json.memberNodes [("duration", .integer n)]) {}
      ⟨none, some (some n)⟩ :=
    .skip (.slot rfl hread (.none _ _))
  have hblank : (durationBody n).isEmpty = false := rfl
  rw [ofBody, hblank, durationBody, Json.ofBytes_write]
  exact document_eq_ok_iff.mpr ⟨rfl, record_of_fills (by decide) hfills⟩

/-- The request is to issue a user key that lives for so many seconds. -/
structure Request.OrdersUserKey (r : Request) (n : Nat) : Prop where
  method : r.method = .post
  route : Route.ofPath r.path = some .keys
  order : ∃ order, IssueOrder.ofBody r.body = .ok order ∧
    (order.kind = none ∨ order.kind = some KeyKind.user.code) ∧ order.duration = some n

/-- The key that is then asked for. -/
def timedRequest (now x : Instant) : Key := { userRequest now with expiresAt := some x }

theorem request_of_duration {o : IssueOrder} (t : Instant)
    (hkind : o.kind = none ∨ o.kind = some KeyKind.user.code) (hduration : o.duration = some n) :
    o.request t = (t.addSeconds? n).elim (.error (misunderstood "duration out of range"))
      fun x => .ok ⟨"", .user, "", "", t, some x⟩ := by
  have huser : o.kind.elim (.ok .user) KeyKind.ofCode = .ok .user := by
    rcases hkind with hkind | hkind
    · rw [hkind]
      rfl
    · rw [hkind]
      exact KeyKind.ofCode_code .user
  unfold IssueOrder.request
  simp only [huser, hduration]
  cases t.addSeconds? n with
  | none => rfl
  | some x => rfl

theorem respond_of_order (s : KeyService) (now : Instant) (hr : r.OrdersUserKey n)
    (hsmall : r.isTooLarge = false) : respond s now r = issueKey s now r.credential r.body := by
  simp only [respond, hr.route, hr.method, Route.answer, hsmall, Bool.false_eq_true, if_false]

/-- A duration that leads out of the calendar is refused before anything else is looked at. -/
theorem respond_of_overlong (hr : r.OrdersUserKey n) (hsmall : r.isTooLarge = false)
    (hadd : (KeyService.issueTime now).addSeconds? n = none) :
    respond s now r = .done (misunderstood "duration out of range") := by
  obtain ⟨order, hbody, hkind, hduration⟩ := hr.order
  have hrequest := request_of_duration (KeyService.issueTime now) hkind hduration
  rw [respond_of_order s now hr hsmall, issueKey, hbody]
  simp only [hrequest, hadd, Option.elim_none]

/-- Any other order is one for a key with an expiry, and a key is the answer if there is one. -/
theorem run_respond_of_issued (hr : r.OrdersUserKey n) (hsmall : r.isTooLarge = false)
    (hadd : (KeyService.issueTime now).addSeconds? n = some x) {key : Key}
    (hissue : ((s.issue now r.credential (timedRequest now x)).run b).1 = some (.ok key)) :
    (respond s now r).run b =
      (some (issued key), ((s.issue now r.credential (timedRequest now x)).run b).2) := by
  obtain ⟨order, hbody, hkind, hduration⟩ := hr.order
  have hrequest := request_of_duration (KeyService.issueTime now) hkind hduration
  rw [respond_of_order s now hr hsmall, issueKey, hbody]
  simp only [hrequest, hadd, Option.elim_some]
  exact Plan.run_bind_of_done b hissue rfl

/-! ## What comes of it -/

/-- With a login key and an id that is free, the key is issued. -/
theorem run_issue_timed (hlogin : IsLogin s.secret now r.credential owner) (hb : b.InOrder)
    (hid : b.freshId.1 = .ok id) (x : Instant) :
    ((s.issue now r.credential (timedRequest now x)).run b).1 =
        some (.ok (s.userKeyOf owner id (timedRequest now x))) ∧
      ((s.issue now r.credential (timedRequest now x)).run b).2.1.vault =
        b.vault.insert (owner, id) (recordOf (s.userKeyOf owner id (timedRequest now x))) := by
  obtain ⟨hanswer, hvault, -⟩ := KeyService.run_issue_of_free (timedRequest now x) b rfl
    (issueTime_nanos now) hlogin hid (by rw [hb.outage])
    (hb.free id (Plan.Backend.mem_idsToCome_of_freshId hid) owner)
  exact ⟨hanswer, hvault⟩

/-- The order of a user key is answered, and not by a fault of the server. -/
theorem answered_of_order (hr : r.OrdersUserKey n) (hb : b.InOrder)
    (hid : b.freshId.1 = .ok id) :
    ∃ answer, ((respond s now r).run b).1 = some answer ∧ answer.status < 500 := by
  by_cases hlogin : ∃ owner, IsLogin s.secret now r.credential owner
  · obtain ⟨owner, hlogin⟩ := hlogin
    cases hsmall : r.isTooLarge with
    | true =>
      have hplan : respond s now r = .done .tooLarge := by
        simp only [respond, hr.route, hr.method, Route.answer, hsmall, if_true]
      exact ⟨.tooLarge, by rw [hplan]; rfl, by decide⟩
    | false =>
      cases hadd : (KeyService.issueTime now).addSeconds? n with
      | none =>
        rw [respond_of_overlong hr hsmall hadd]
        exact ⟨_, rfl, by simp [misunderstood, refusal]⟩
      | some x =>
        rw [run_respond_of_issued hr hsmall hadd (run_issue_timed hlogin hb hid x).1]
        exact ⟨_, rfl, by simp [issued]⟩
  · have hnot : ∀ owner, ¬ IsLogin s.secret now r.credential owner := fun owner h =>
      hlogin ⟨owner, h⟩
    obtain ⟨-, answer, hanswer, hstatus⟩ :=
      (turnedAway_of_not_isLogin (s := s) (.issue hr.method hr.route) hnot).run b
    refine ⟨answer, hanswer, ?_⟩
    rcases hstatus with rfl | hstatus | hstatus
    · decide
    · omega
    · omega

/-- **A duration is granted to the second or refused.** A user key that lives for a number of seconds
is ordered with any credential, at any time of the calendar, from a store that was in order at the
start, whatever it has served since, with an id at hand. There is an answer, and it is no fault of
the server. If that many seconds from the issue time on lead past the last second of the calendar,
the order is refused, and nothing is asked of the store, changed or recorded. If they do not, and the
credential is a login key, a key is the answer; its expiry lies exactly so many seconds after its
issue, with the same part of the second; the record stored for it has that expiry; and whatever is
called after that, the value of the key identifies the owner before the expiry and never from it on,
unless the owner has revoked it. -/
theorem duration_is_exact_or_refused {start : Plan.Backend} {before : List Entry}
    (hstart : start.InOrder) (hserved : Serves s start before b) (hid : b.freshId.1 = .ok id)
    (hnow : now.InCalendar) (hr : r.OrdersUserKey n) :
    let t := KeyService.issueTime now
    let done := (respond s now r).run b
    (∃ answer, done.1 = some answer ∧ answer.status < 500) ∧
    (r.isTooLarge = false → Instant.lastSecond < t.seconds + n →
      done = (some (refusal 400 "malformed_entity" "duration out of range"), b, {})) ∧
    (r.isTooLarge = false → t.seconds + n ≤ Instant.lastSecond →
      ∀ owner, IsLogin s.secret now r.credential owner →
        ∃ key x, done.1 = some (issued key) ∧ (issued key).status = 201 ∧
          key.issuer = owner ∧ key.issuedAt = t ∧ key.expiresAt = some x ∧
          x.seconds = t.seconds + n ∧ x.nanos % 1000000000 = t.nanos % 1000000000 ∧
          (t.nanos < 1000000000 → x.nanos = t.nanos) ∧
          done.2.1.vault.get? (owner, key.id) =
            some { key with secret := Vault.digest key.secret } ∧
          s.IdentifiesUntil done.2.1 key x) := by
  intro t done
  have hb : b.InOrder := hstart.serves hserved
  have ht : t.InCalendar := issueTime_inCalendar hnow
  refine ⟨answered_of_order hr hb hid, ?_, ?_⟩
  · intro hsmall hlong
    have hadd : t.addSeconds? n = none := (Instant.addSeconds?_eq_none_iff ht.1).mpr hlong
    show (respond s now r).run b = _
    rw [respond_of_overlong hr hsmall hadd]
    rfl
  · intro hsmall hshort owner hlogin
    cases hadd : t.addSeconds? n with
    | none =>
      have hlong := (Instant.addSeconds?_eq_none_iff ht.1).mp hadd
      omega
    | some x =>
      have hx : x.InCalendar := Instant.inCalendar_of_add? (Instant.add?_of_addSeconds? hadd)
      obtain ⟨hissue, hvault⟩ := run_issue_timed hlogin hb hid x
      have hrun : done = _ := run_respond_of_issued hr hsmall hadd hissue
      rw [hrun]
      refine ⟨_, x, rfl, rfl, rfl, rfl, rfl, Instant.seconds_of_addSeconds? hadd,
        Instant.part_of_addSeconds? hadd, Instant.nanos_eq_of_addSeconds? hadd, ?_, ?_⟩
      · show ((s.issue now r.credential (timedRequest now x)).run b).2.1.vault.get? _ = _
        rw [hvault]
        exact Table.get?_insert_self _ _ _
      · exact KeyService.identifiesUntil_of_issue hb rfl hissue ht rfl hx

/-- With a login key the last second of the calendar can be ordered, and the next one cannot. -/
theorem last_second_is_granted :
    let s := KeyService.standard "secret"
    let now : Instant := ⟨1704067200, 0, by decide⟩
    let session := Token.issue "secret"
      { subject := "alice", issuedAt := 1704067000, expiresAt := some 1704103000,
        kind := some .login }
    let order := fun n : Nat =>
      Request.mk .post "/keys" [("authorization", "Bearer " ++ session)] (durationBody n)
    let b : Plan.Backend := { vault := .empty, ids := [.ok "k1"] }
    (∃ key, ((respond s now (order 8208562809599)).run b).1 = some (issued key) ∧
        key.expiresAt = some ⟨8210266876799, 1, by decide⟩) ∧
      (respond s now (order 8208562809600)).run b =
        (some (refusal 400 "malformed_entity" "duration out of range"), b, {}) := by
  intro s now session order b
  have hsession : Token.Carries "secret" session _ :=
    Token.carries_issue "secret" ⟨by decide, by decide⟩
  have hname : ("authorization".toList.map Char.toLower == "authorization".toList) = true := by
    decide
  have hcredential : ∀ n, (order n).credential = session := fun n =>
    credential_of_presents hsession
      (presents_of_header hsession (.inr rfl) (List.find?_cons_of_pos hname))
  have hlogin : ∀ n, IsLogin s.secret now (order n).credential "alice" := fun n =>
    hcredential n ▸ ⟨_, hsession, rfl, rfl, rfl, by decide⟩
  have horder : ∀ n ≤ Text.max64, (order n).OrdersUserKey n := fun n hn =>
    ⟨rfl, route_of_target rfl, ⟨_, IssueOrder.ofBody_duration hn, .inl rfl, rfl⟩⟩
  have hb : b.InOrder := Plan.Backend.inOrder_of_empty (by decide)
  have hnow : now.InCalendar := by decide
  obtain ⟨-, -, hgranted⟩ := duration_is_exact_or_refused hb (Serves.nil (s := s) b) rfl hnow
    (horder 8208562809599 (by decide))
  obtain ⟨-, hrefused, -⟩ := duration_is_exact_or_refused hb (Serves.nil (s := s) b) rfl hnow
    (horder 8208562809600 (by decide))
  obtain ⟨key, x, hanswer, -, -, -, hexpiry, hseconds, -, hnanos, -⟩ :=
    hgranted (by decide) (by decide) "alice" (hlogin _)
  refine ⟨⟨key, hanswer, ?_⟩, hrefused (by decide) (by decide)⟩
  have hx : x = ⟨8210266876799, 1, by decide⟩ := by
    obtain ⟨seconds, nanos, hlt⟩ := x
    obtain rfl : seconds = 8210266876799 := hseconds.trans (by decide)
    obtain rfl : nanos = 1 := hnanos (by decide)
    rfl
  rw [hexpiry, hx]

end Http
end Gatehouse
