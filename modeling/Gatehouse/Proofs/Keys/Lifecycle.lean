import Gatehouse.Proofs.Keys.Cell

/-!
The life of a user key. A key service is run over a vault, call after call, by any callers with any
arguments. A cell of the vault that was cleared stays clear, since its id never comes again
(`Serves.cell_some`, `Serves.cell_none`). So what a use of a key answers is settled by the calls
between issue and use, and by the clock.
-/

namespace Gatehouse

/-! ## Runs -/

/-- The calls are served one after another, from one state of the backend to another. -/
inductive Serves (s : KeyService) : Plan.Backend → List Entry → Plan.Backend → Prop
  | nil (b : Plan.Backend) : Serves s b [] b
  | cons {b : Plan.Backend} {e : Entry} {es : List Entry} {last : Plan.Backend}
    (hanswer : ((e.call.plan s e.time).run b).1 = e.answer)
    (hrest : Serves s ((e.call.plan s e.time).run b).2.1 es last) : Serves s b (e :: es) last

namespace Serves

variable {s : KeyService}

/-- Any calls at any times can be served. -/
theorem exists_of_calls (b : Plan.Backend) (calls : List (Instant × Call)) :
    ∃ es last, es.map (fun e => (e.time, e.call)) = calls ∧ Serves s b es last := by
  induction calls generalizing b with
  | nil => exact ⟨[], b, rfl, .nil b⟩
  | cons c calls ih =>
    obtain ⟨time, call⟩ := c
    obtain ⟨es, last, hes, hrun⟩ := ih ((call.plan s time).run b).2.1
    exact ⟨⟨time, call, ((call.plan s time).run b).1⟩ :: es, last, by rw [List.map_cons, hes],
      .cons rfl hrun⟩

theorem exists_of_two (b : Plan.Backend) (time time' : Instant) (call call' : Call) :
    ∃ answer answer' last, Serves s b [⟨time, call, answer⟩, ⟨time', call', answer'⟩] last :=
  ⟨((call.plan s time).run b).1, ((call'.plan s time').run ((call.plan s time).run b).2.1).1, _,
    .cons rfl (.cons rfl (.nil _))⟩

theorem split {b last : Plan.Backend} {es : List Entry} :
    ∀ {first : List Entry}, Serves s b (first ++ es) last →
      ∃ mid, Serves s b first mid ∧ Serves s mid es last
  | [], h => ⟨b, .nil b, h⟩
  | _ :: _, .cons hanswer hrest => by
    obtain ⟨mid, hfirst, hes⟩ := split hrest
    exact ⟨mid, .cons hanswer hfirst, hes⟩

end Serves

/-! ## Expiry -/

theorem Instant.not_le_iff {a b : Instant} : ¬ a ≤ b ↔ b < a := by
  constructor
  · intro h
    refine ⟨?_, h⟩
    rw [le_def] at h ⊢
    omega
  · exact fun h => h.2

theorem Instant.le_trans {a b c : Instant} (hab : a ≤ b) (hbc : b ≤ c) : a ≤ c := by
  rw [le_def] at hab hbc ⊢
  omega

/-- The seconds of the calendar fit into 64 bits. -/
theorem Instant.InCalendar.in64 {t : Instant} (h : t.InCalendar) :
    -9223372036854775808 ≤ t.seconds ∧ t.seconds ≤ 9223372036854775807 := by
  have hfirst : firstSecond = -8334601228800 := by decide
  have hlast : lastSecond = 8210266876799 := by decide
  rw [InCalendar, hfirst, hlast] at h
  omega

namespace Key

theorem isExpiredAt_iff {key : Key} {now : Instant} :
    key.isExpiredAt now = true ↔ ∃ x, key.expiresAt = some x ∧ x ≤ now := by
  rw [isExpiredAt]
  cases key.expiresAt with
  | none => simp
  | some x => simp

theorem not_isExpiredAt_iff {key : Key} {now : Instant} :
    ¬ key.isExpiredAt now = true ↔ ∀ x, key.expiresAt = some x → now < x := by
  rw [isExpiredAt_iff, not_exists]
  constructor
  · exact fun h x hx => Instant.not_le_iff.mp fun hle => h x ⟨hx, hle⟩
  · exact fun h x hx => Instant.not_le_iff.mpr (h x hx.1) hx.2

/-- An expired key stays expired. -/
theorem isExpiredAt_mono {key : Key} {now later : Instant} (hle : now ≤ later)
    (h : key.isExpiredAt now = true) : key.isExpiredAt later = true := by
  obtain ⟨x, hx, hxnow⟩ := isExpiredAt_iff.mp h
  exact isExpiredAt_iff.mpr ⟨x, hx, Instant.le_trans hxnow hle⟩

end Key

namespace Serves

variable {s : KeyService} {b last : Plan.Backend} {es : List Entry} {owner id : String}

/-! ## One cell of the vault through a run -/

theorem follows (h : Serves s b es last) : Plan.Follows b last := by
  induction h with
  | nil b => exact .refl b
  | cons hanswer hrest ih => exact (Plan.follows_run _ _).trans ih

theorem step_not_mem_idsToCome (e : Entry) (hid : id ∉ b.idsToCome) :
    id ∉ ((e.call.plan s e.time).run b).2.1.idsToCome :=
  fun h => hid ((Plan.follows_run _ b).idsToCome_sublist.mem h)

theorem step_outage (e : Entry) (hb : b.outage = {}) :
    ((e.call.plan s e.time).run b).2.1.outage = {} :=
  (Plan.follows_run _ b).outage_eq.trans hb

/-- An empty cell stays empty. -/
theorem cell_none (h : Serves s b es last) (hb : b.outage = {}) (hid : id ∉ b.idsToCome)
    (hcell : b.vault.get? (owner, id) = none) : last.vault.get? (owner, id) = none := by
  induction h with
  | nil b => exact hcell
  | @cons b e es last hanswer hrest ih =>
    refine ih (step_outage e hb) (step_not_mem_idsToCome e hid) ?_
    rcases Entry.cell_step hanswer hb hid with ⟨-, hafter⟩ | ⟨-, hafter⟩
    · exact hafter
    · exact hafter.trans hcell

/-- A filled cell is cleared by the first call that clears it, and by nothing else. -/
theorem cell_some (h : Serves s b es last) (hb : b.outage = {}) (hid : id ∉ b.idsToCome)
    {key : Key} (hcell : b.vault.get? (owner, id) = some key) :
    (∃ e ∈ es, e.Clears s owner id (some key)) ∧ last.vault.get? (owner, id) = none ∨
      (∀ e ∈ es, ¬ e.Clears s owner id (some key)) ∧ last.vault.get? (owner, id) = some key := by
  induction h with
  | nil b => exact .inr ⟨by simp, hcell⟩
  | @cons b e es last hanswer hrest ih =>
    have hb' := step_outage e hb (s := s)
    have hid' := step_not_mem_idsToCome e hid (s := s)
    have hstep : e.Settles s owner id _ _ := Entry.cell_step hanswer hb hid
    rw [hcell] at hstep
    rcases hstep with ⟨hclears, hafter⟩ | ⟨hclears, hafter⟩
    · exact .inl ⟨⟨e, List.mem_cons_self, hclears⟩, cell_none hrest hb' hid' hafter⟩
    · rcases ih hb' hid' hafter with ⟨⟨e', hmem, he'⟩, hlast⟩ | ⟨hnone, hlast⟩
      · exact .inl ⟨⟨e', List.mem_cons_of_mem e hmem, he'⟩, hlast⟩
      · refine .inr ⟨fun e' hmem => ?_, hlast⟩
        rcases List.mem_cons.mp hmem with rfl | hmem
        · exact hclears
        · exact hnone e' hmem

end Serves

/-! ## A store in order -/

namespace Plan.Backend

/-- No call to the store fails, no id comes twice, and none of those to come has a record yet. -/
structure InOrder (b : Plan.Backend) : Prop where
  outage : b.outage = {}
  ids : b.idsToCome.Nodup
  free : ∀ id ∈ b.idsToCome, ∀ owner, b.vault.get? (owner, id) = none

variable {s : KeyService} {b last : Plan.Backend} {id : String}

theorem inOrder_of_empty {ids : List (Except Failure String)}
    (hids : (ids.filterMap Except.toOption).Nodup) :
    InOrder { vault := .empty, ids := ids } :=
  ⟨rfl, hids, fun _ _ _ => rfl⟩

theorem mem_idsToCome_of_freshId (h : b.freshId.1 = .ok id) : id ∈ b.idsToCome := by
  unfold freshId at h
  unfold idsToCome
  split at h
  · cases h
  · next next ids hids =>
    rw [hids, show next = .ok id from h]
    exact List.mem_cons_self

/-- Only an issue puts a record anywhere, and the id that it takes for it is none of those to come
after it. -/
theorem InOrder.free_issue (hb : b.InOrder) {now : Instant} {issuer : String} {request : Key}
    (hid : id ∈ ((s.issue now issuer request).run b).2.1.idsToCome) (owner : String) :
    ((s.issue now issuer request).run b).2.1.vault.get? (owner, id) = none := by
  have hbefore : b.vault.get? (owner, id) = none :=
    hb.free id ((follows_run _ b).idsToCome_sublist.mem hid) owner
  by_cases hkind : request.kind = .user
  · by_cases hnanos : request.issuedAt.nanos = 0
    · rw [KeyService.issue, if_pos hnanos]
      exact hbefore
    · rw [KeyService.issue, if_neg hnanos, hkind] at hid ⊢
      rcases KeyService.login_cases s now "issue user key" issuer with
        ⟨holder, h, -⟩ | ⟨-, reason, h⟩
      · rcases KeyService.run_userKey h request hb.outage with
          ⟨next, ids, hids, -, hrest, hvault⟩ | ⟨-, -, hvault⟩
        · have hnodup := hb.ids
          simp only [idsToCome, hids, hrest] at hnodup hid
          have hne : (owner, id) ≠ (holder, next) := by
            rintro ⟨⟩
            exact (List.nodup_cons.mp hnodup).1 hid
          rw [hvault, Table.get?_insert, if_neg hne, hbefore]
        · rw [hvault, hbefore]
      · simp only [KeyService.userKey, h]
        exact hbefore
  · rw [(KeyService.leavesStore_issue s now issuer hkind).vault_run b, hbefore]

theorem InOrder.call (hb : b.InOrder) (s : KeyService) (now : Instant) (c : Call) :
    ((c.plan s now).run b).2.1.InOrder := by
  have hfollows := follows_run (c.plan s now) b
  refine ⟨hfollows.outage_eq.trans hb.outage, hfollows.idsToCome_sublist.nodup hb.ids, ?_⟩
  intro id hid owner
  have hbefore := hb.free id (hfollows.idsToCome_sublist.mem hid) owner
  -- all calls but an issue leave a cell as it was or clear it
  have hsettled : ∀ {e : Entry} {after : Option Key},
      e.Settles s owner id (b.vault.get? (owner, id)) after → after = none := by
    intro e after h
    rcases h with ⟨-, hafter⟩ | ⟨-, hafter⟩
    · exact hafter
    · exact hafter.trans hbefore
  cases c with
  | issue issuer request =>
    obtain ⟨-, hstate⟩ := KeyService.run_replying (s.issue now issuer request) .issued b
    rw [Call.plan, hstate] at hid ⊢
    exact hb.free_issue hid owner
  | revoke token i => exact hsettled (Entry.settles_revoke hb.outage)
  | retrieve token i => exact hsettled (Entry.settles_retrieve hb.outage)
  | identify token => exact hsettled (Entry.settles_identify hb.outage)

/-- A store in order stays in order, whatever it serves. -/
theorem InOrder.serves (hb : b.InOrder) {es : List Entry} (h : Serves s b es last) :
    last.InOrder := by
  induction h with
  | nil b => exact hb
  | cons hanswer hrest ih => exact ih (hb.call _ _ _)

end Plan.Backend

namespace KeyService

variable {s : KeyService} {b last : Plan.Backend} {issued use : Entry} {between after : List Entry}
  {token : String} {request key : Key}

/-! ## From issue to use -/

/-- Dates fit into a token. -/
theorem inRange_userClaims {owner id : String} {issuedAt : Instant} {expiresAt : Option Instant}
    (hissuedAt : issuedAt.InCalendar) (hexpiresAt : ∀ x, expiresAt = some x → x.InCalendar) :
    (userClaims owner id issuedAt expiresAt).InRange := by
  refine ⟨hissuedAt.in64, fun t ht => ?_⟩
  obtain ⟨x, hx, rfl⟩ := Option.map_eq_some_iff.mp ht
  exact (hexpiresAt x hx).in64

/-- The key returned by the issue of a user key: it stands in the vault, its token carries its
claims, and its id will not come again. -/
theorem cell_of_issued (hids : b.idsToCome.Nodup) (hb : b.outage = {})
    (hissue : issued.call = .issue token request) (hkind : request.kind = .user)
    (hanswer : ((issued.call.plan s issued.time).run b).1 = some (.ok (.issued key)))
    (hissuedAt : key.issuedAt.InCalendar)
    (hexpiresAt : ∀ x, key.expiresAt = some x → x.InCalendar) :
    Token.Carries s.secret key.secret
        (userClaims key.issuer key.id key.issuedAt key.expiresAt) ∧
      key.id ∉ ((issued.call.plan s issued.time).run b).2.1.idsToCome ∧
      ((issued.call.plan s issued.time).run b).2.1.vault.get? (key.issuer, key.id) =
        some (recordOf key) := by
  obtain ⟨hresult, hstate⟩ := run_replying (s.issue issued.time token request) .issued b
  rw [hissue] at hanswer ⊢
  rw [Call.plan] at hanswer ⊢
  rw [hstate]
  rw [hresult] at hanswer
  by_cases hnanos : request.issuedAt.nanos = 0
  · rw [issue, if_pos hnanos] at hanswer
    cases hanswer
  · rw [issue, if_neg hnanos, hkind] at hanswer ⊢
    dsimp only at hanswer ⊢
    rcases login_cases s issued.time "issue user key" token with ⟨owner, h, -⟩ | ⟨-, reason, h⟩
    · rcases run_userKey h request hb with ⟨id, ids, hfirst, hrun, hrest, hvault⟩ |
        ⟨-, ⟨e, hrun⟩, -⟩
      · rw [hrun] at hanswer
        cases hanswer
        refine ⟨Token.carries_issue s.secret (inRange_userClaims hissuedAt hexpiresAt), ?_, ?_⟩
        · simp only [Plan.Backend.idsToCome, hfirst, hrest] at hids ⊢
          exact (List.nodup_cons.mp hids).1
        · rw [hvault]
          exact Table.get?_insert_self _ _ _
      · rw [hrun] at hanswer
        cases hanswer
    · simp only [userKey, h] at hanswer
      cases hanswer

/-- What the use of a user key answers, by the cell of the vault. -/
theorem answer_of_cell (hb : b.outage = {})
    (hcarries : Token.Carries s.secret key.secret
      (userClaims key.issuer key.id key.issuedAt key.expiresAt))
    (huse : use.call = .identify key.secret)
    (hanswer : ((use.call.plan s use.time).run b).1 = use.answer) :
    use.answer =
      (match b.vault.get? (key.issuer, key.id) with
      | none => some (.error .notFound)
      | some found =>
        if found.isExpiredAt use.time then some (.error (.unauthorized .keyExpired))
        else some (.ok (.identity key.issuer))) := by
  obtain ⟨hresult, -⟩ := run_replying (s.identify use.time key.secret) .identity b
  have hrun := (run_identifyClaims use.time "identify"
    (show (userClaims key.issuer key.id key.issuedAt key.expiresAt).kind = some .user from rfl)
    hb).1
  rw [← hanswer, huse, Call.plan, hresult, identify_of_carries hcarries rfl, hrun]
  dsimp only [userClaims]
  cases b.vault.get? (key.issuer, key.id) with
  | none => rfl
  | some found =>
    by_cases hexpired : found.isExpiredAt use.time = true
    · simp only [hexpired, if_true]
      rfl
    · simp only [hexpired]
      rfl

/-- What the use of a user key answers, by what happened since its issue. -/
theorem answer_of_use (hids : b.idsToCome.Nodup) (hb : b.outage = {})
    (hrun : Serves s b (issued :: (between ++ use :: after)) last)
    (hissue : issued.call = .issue token request) (hkind : request.kind = .user)
    (hkey : issued.answer = some (.ok (.issued key))) (hissuedAt : key.issuedAt.InCalendar)
    (hexpiresAt : ∀ x, key.expiresAt = some x → x.InCalendar)
    (huse : use.call = .identify key.secret) :
    (∃ e ∈ between, e.Ends s key) ∧ use.answer = some (.error .notFound) ∨
      (∀ e ∈ between, ¬ e.Ends s key) ∧
        use.answer =
          (if key.isExpiredAt use.time then some (.error (.unauthorized .keyExpired))
          else some (.ok (.identity key.issuer))) := by
  obtain _ | @⟨_, _, _, _, hanswer, hrest⟩ := hrun
  obtain ⟨hcarries, hid, hcell⟩ :=
    cell_of_issued hids hb hissue hkind (hanswer.trans hkey) hissuedAt hexpiresAt
  obtain ⟨mid, hbetween, huses⟩ := hrest.split
  have hclears : ∀ e : Entry, e.Clears s key.issuer key.id (some (recordOf key)) ↔ e.Ends s key := by
    intro e
    have hrecord : (recordOf key).isExpiredAt e.time = true ↔
        ∃ x, key.expiresAt = some x ∧ x ≤ e.time := Key.isExpiredAt_iff
    simp only [Entry.Clears, Entry.Ends, Option.some.injEq, exists_eq_left', hrecord]
  have hmid : mid.outage = {} :=
    hbetween.follows.outage_eq.trans (Serves.step_outage issued hb)
  obtain _ | @⟨_, _, _, _, hanswer', -⟩ := huses
  have hfinal := answer_of_cell hmid hcarries huse hanswer'
  rcases hbetween.cell_some (Serves.step_outage issued hb) hid hcell with
    ⟨⟨e, he, hends⟩, hgone⟩ | ⟨hkept, hthere⟩
  · rw [hgone] at hfinal
    exact .inl ⟨⟨e, he, (hclears e).mp hends⟩, hfinal⟩
  · rw [hthere] at hfinal
    exact .inr ⟨fun e he hends => hkept e he ((hclears e).mpr hends), hfinal⟩

/-- **The lifecycle of a user key.** The calls may be any, by anyone, as long as the clock does not
run backwards and no id comes twice, and the instants of the key are those a date can have. From its
issue on, a user key identifies its owner until the owner has revoked it or its expiry has come, to
the nanosecond. After that it is not found, if it was revoked or somebody looked it up when it had
expired; the first use past the expiry is told so. It never comes to life again. -/
theorem user_key_lifecycle {vault : Vault} {ids : List (Except Failure String)}
    {before : List Entry} (hids : (ids.filterMap Except.toOption).Nodup)
    (hrun : Serves s { vault := vault, ids := ids }
      (before ++ issued :: (between ++ use :: after)) last)
    (hclock : (before ++ issued :: (between ++ use :: after)).Pairwise fun e e' => e.time ≤ e'.time)
    (hissue : issued.call = .issue token request) (hkind : request.kind = .user)
    (hkey : issued.answer = some (.ok (.issued key))) (hissuedAt : key.issuedAt.InCalendar)
    (hexpiresAt : ∀ x, key.expiresAt = some x → x.InCalendar)
    (huse : use.call = .identify key.secret) :
    (use.answer = some (.ok (.identity key.issuer)) ↔
      (∀ e ∈ between, ¬ e.Revokes s key.issuer key.id) ∧
        ∀ x, key.expiresAt = some x → use.time < x) ∧
    ((∃ e ∈ between, e.Ends s key) → use.answer = some (.error .notFound)) ∧
    ((∀ e ∈ between, ¬ e.Ends s key) → (∃ x, key.expiresAt = some x ∧ x ≤ use.time) →
      use.answer = some (.error (.unauthorized .keyExpired))) ∧
    (use.answer ≠ some (.ok (.identity key.issuer)) →
      ∀ later ∈ after, later.call = .identify key.secret →
        later.answer ≠ some (.ok (.identity key.issuer))) := by
  obtain ⟨b, hbefore, hfrom⟩ := hrun.split
  have hb : b.outage = {} := hbefore.follows.outage_eq
  have hnodup : b.idsToCome.Nodup := hbefore.follows.idsToCome_sublist.nodup hids
  obtain ⟨-, hclock, -⟩ := List.pairwise_append.mp hclock
  obtain ⟨-, hclock⟩ := List.pairwise_cons.mp hclock
  -- the same for a first and for a later use, with what lies between issue and use left open
  have hok : ∀ {between' after' : List Entry} {use' : Entry},
      between' ++ use' :: after' = between ++ use :: after → use'.call = .identify key.secret →
      (use'.answer = some (.ok (.identity key.issuer)) ↔
        (∀ e ∈ between', ¬ e.Revokes s key.issuer key.id) ∧
          ∀ x, key.expiresAt = some x → use'.time < x) := by
    intro between' after' use' hsame huse'
    rw [← hsame] at hfrom hclock
    obtain ⟨-, -, hbetween⟩ := List.pairwise_append.mp hclock
    rw [← Key.not_isExpiredAt_iff]
    rcases answer_of_use hnodup hb hfrom hissue hkind hkey hissuedAt hexpiresAt huse' with
      ⟨⟨e, he, hends⟩, hanswer⟩ | ⟨hkept, hanswer⟩
    · rw [hanswer]
      refine iff_of_false (by simp) ?_
      rintro ⟨hnot, hlive⟩
      rcases hends with hrevoked | ⟨-, hexpired⟩
      · exact hnot e he hrevoked
      · exact hlive (Key.isExpiredAt_mono (hbetween e he use' List.mem_cons_self)
          (Key.isExpiredAt_iff.mpr hexpired))
    · rw [hanswer]
      by_cases hexpired : key.isExpiredAt use'.time = true
      · simp [hexpired]
      · simp only [hexpired, Bool.false_eq_true, if_false, not_false_eq_true, and_true, true_iff]
        exact fun e he hrevoked => hkept e he (.inl hrevoked)
  have hanswer := answer_of_use hnodup hb hfrom hissue hkind hkey hissuedAt hexpiresAt huse
  refine ⟨hok rfl huse, fun ⟨e, he, hends⟩ => ?_, fun hkept hexpired => ?_,
    fun hnot later hlater hcall hagain => ?_⟩
  · rcases hanswer with ⟨-, hanswer⟩ | ⟨hkept, -⟩
    · exact hanswer
    · exact absurd hends (hkept e he)
  · rcases hanswer with ⟨⟨e, he, hends⟩, -⟩ | ⟨-, hanswer⟩
    · exact absurd hends (hkept e he)
    · rw [hanswer, if_pos (Key.isExpiredAt_iff.mpr hexpired)]
  · obtain ⟨first, rest, rfl⟩ := List.append_of_mem hlater
    have hsame : (between ++ use :: first) ++ later :: rest =
        between ++ use :: (first ++ later :: rest) := by simp
    obtain ⟨hrevoked, hlive⟩ := (hok hsame hcall).mp hagain
    obtain ⟨-, hafter, -⟩ := List.pairwise_append.mp hclock
    obtain ⟨hle, -⟩ := List.pairwise_cons.mp hafter
    refine hnot ((hok rfl huse).mpr ⟨fun e he => hrevoked e (by simp [he]), fun x hx => ?_⟩)
    have hlater : use.time ≤ later.time := hle later (by simp)
    exact Instant.not_le_iff.mp fun hx' =>
      (hlive x hx).2 (Instant.le_trans hx' hlater)

/-- A key with an expiry within a second: its token says the start of that second, and still the
key is good a nanosecond before the expiry. -/
theorem user_key_good_until_expiry :
    let s := KeyService.standard "secret"
    let session := Token.issue s.secret
      (s.sessionClaims "alice" ⟨"", .login, "", "", ⟨50, 1, by decide⟩, none⟩ ⟨36050, 0, by decide⟩)
    let request : Key := ⟨"", .user, "", "", ⟨100, 5, by decide⟩, some ⟨200, 7, by decide⟩⟩
    let key := s.userKeyOf "alice" "k1" request
    ∃ issued use last, Serves s { vault := .empty, ids := [.ok "k1"] } [issued, use] last ∧
      issued.call = .issue session request ∧ issued.answer = some (.ok (.issued key)) ∧
      use.call = .identify key.secret ∧ use.time = ⟨200, 6, by decide⟩ ∧
      use.answer = some (.ok (.identity "alice")) := by
  intro s session request key
  have hlogin : IsLogin s.secret ⟨100, 9, by decide⟩ session "alice" :=
    ⟨_, Token.carries_issue s.secret ⟨by decide, by decide⟩, rfl, rfl, rfl, by decide⟩
  have hissued : (((Call.issue session request).plan s ⟨100, 9, by decide⟩).run
      { vault := .empty, ids := [.ok "k1"] }).1 = some (.ok (.issued key)) := by
    rw [Call.plan, (run_replying _ _ _).1, issue, if_neg (by decide)]
    rcases run_userKey hlogin request (show ({ vault := .empty, ids := [.ok "k1"] } :
      Plan.Backend).outage = {} from rfl) with ⟨id, ids, hids, hrun, -⟩ | ⟨htaken, -⟩
    · obtain ⟨rfl, -⟩ : "k1" = id ∧ [] = ids := by simpa using hids
      exact congrArg (Option.map (Except.map Reply.issued)) hrun
    · cases htaken "k1" [] rfl
  obtain ⟨es, last, hes, hrun⟩ := Serves.exists_of_calls (s := s)
    { vault := .empty, ids := [.ok "k1"] }
    [(⟨100, 9, by decide⟩, .issue session request), (⟨200, 6, by decide⟩, .identify key.secret)]
  obtain ⟨issued, rest, rfl, hfirst, hes⟩ := List.map_eq_cons_iff.mp hes
  obtain ⟨use, rest, rfl, hsecond, hes⟩ := List.map_eq_cons_iff.mp hes
  obtain rfl := List.map_eq_nil_iff.mp hes
  obtain ⟨htime, hcall⟩ := Prod.mk.inj hfirst
  obtain ⟨htime', hcall'⟩ := Prod.mk.inj hsecond
  have hkey : issued.answer = some (.ok (.issued key)) := by
    cases hrun with
    | cons hanswer _ => rw [← hanswer, htime, hcall, hissued]
  refine ⟨issued, use, last, hrun, hcall, hkey, hcall', htime', ?_⟩
  have hrun' : Serves s { vault := .empty, ids := [.ok "k1"] }
      ([] ++ issued :: ([] ++ use :: [])) last := hrun
  have hclock : List.Pairwise (fun e e' : Entry => e.time ≤ e'.time)
      ([] ++ issued :: ([] ++ use :: [])) := by
    simp only [List.nil_append, List.pairwise_cons, List.mem_singleton, forall_eq, htime, htime']
    exact ⟨by decide, by simp⟩
  have hexpiresAt : ∀ x, key.expiresAt = some x → x.InCalendar := by
    intro x hx
    cases hx
    decide
  refine (user_key_lifecycle (by decide) hrun' hclock hcall rfl hkey (by decide) hexpiresAt
    hcall').1.mpr ⟨by simp, fun x hx => ?_⟩
  cases hx
  rw [htime']
  decide

end KeyService
end Gatehouse
