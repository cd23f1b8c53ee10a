import Gatehouse.Proofs.Keys.Issuance

/-!
What the events of a call are worth when the store fails. Any call to the store may fail, at any
time and with anything, and has changed nothing then (`Vault.Admits`). An event is still true of the
call in which it is recorded (`AuditEvent.IsTrue`), with one exception: that an expired key was
deleted is told even if its deletion failed (`Entry.Course.isTrue_iff`).
-/

namespace Gatehouse

open KeyService (Result recordOf)
open Plan (Exec)

/-! ## A store that fails -/

/-- The store was asked for something and failed. -/
def Exchange.Fails : Exchange → Prop
  | .save _ (.error _) => True
  | .retrieve _ _ (.error _) => True
  | .remove _ _ (.error _) => True
  | _ => False

/-- Every answer of the store was true when it was given, or a failure. -/
def Vault.Admits (v : Vault) : List Exchange → Prop
  | [] => True
  | x :: xs => (x.Fails ∨ x.Truthful v) ∧ Admits (x.onVault v) xs

/-- Calls are served one after another, with what passes in each, over a store that may fail. -/
inductive Withstands (s : KeyService) : Vault → List (Entry × List Exchange) → Vault → Prop
  | nil (v : Vault) : Withstands s v [] v
  | cons {v last : Vault} {e : Entry} {trace : List Exchange}
    {steps : List (Entry × List Exchange)}
    (hexec : Exec (e.call.plan s e.time) trace e.answer) (hstore : v.Admits trace)
    (hrest : Withstands s (trace.foldl Exchange.onVault v) steps last) :
    Withstands s v ((e, trace) :: steps) last

theorem Withstands.split {s : KeyService} {steps : List (Entry × List Exchange)} {last : Vault} :
    ∀ {v : Vault} {past : List (Entry × List Exchange)}, Withstands s v (past ++ steps) last →
      ∃ mid, Withstands s v past mid ∧ Withstands s mid steps last
  | v, [], h => ⟨v, .nil v, h⟩
  | _, _ :: _, .cons hexec hstore hrest => by
    obtain ⟨mid, hpast, hsteps⟩ := split hrest
    exact ⟨mid, .cons hexec hstore hpast, hsteps⟩

/-- Whatever the outage of a backend, what passes on it is admitted. -/
theorem Plan.admits_exchanges {α : Type} (p : Plan α) (b : Backend) :
    b.vault.Admits (p.exchanges b) := by
  induction p generalizing b with
  | done a => trivial
  | crash => trivial
  | save key next ih =>
    refine ⟨?_, vault_save b key ▸ ih _ _⟩
    unfold Backend.save
    split
    · exact .inl trivial
    · exact .inr rfl
  | retrieve issuer id next ih =>
    refine ⟨?_, ih _ b⟩
    unfold Backend.retrieve Outage.answer
    split
    · exact .inl trivial
    · exact .inr rfl
  | remove issuer id next ih =>
    refine ⟨?_, vault_remove b issuer id ▸ ih _ _⟩
    unfold Backend.remove
    split
    · exact .inl trivial
    · exact .inr rfl
  | freshId next ih => exact ⟨.inr trivial, vault_freshId b ▸ ih _ _⟩
  | record event next ih => exact ⟨.inr trivial, ih b⟩
  | notify notice next ih => exact ⟨.inr trivial, ih b⟩

/-! ## Events and what they tell -/

namespace AuditEvent

/-- The event is true of a call, by what was stored before it and what passed in it. -/
def IsTrue (now : Instant) (before : Vault) (trace : List Exchange) : AuditEvent → Prop
  | issued owner id .user => before.get? (owner, id) = none ∧
    ∃ record saved, .save record (.ok saved) ∈ trace ∧
      (trace.foldl Exchange.onVault before).get? (owner, id) = some record
  | revoked owner id => (trace.foldl Exchange.onVault before).get? (owner, id) = none
  | expired owner id => (∃ key, .retrieve owner id (.ok key) ∈ trace ∧
      key.isExpiredAt now = true) ∧
    (trace.foldl Exchange.onVault before).get? (owner, id) = none
  | retrieved owner id => ∃ key, .retrieve owner id (.ok key) ∈ trace ∧
    before.get? (owner, id) = some key ∧ key.isExpiredAt now = false
  | _ => True

/-- The record that is told to have expired could not be deleted. -/
def Undeleted (trace : List Exchange) : AuditEvent → Prop
  | expired owner id => ∃ f, .remove owner id (.error f) ∈ trace
  | _ => False

end AuditEvent

namespace Entry

variable {s : KeyService} {e : Entry} {trace : List Exchange} {v : Vault} {event : AuditEvent}

/-- An event of a call is true unless it tells of a deletion that failed. -/
theorem Course.isTrue_iff (h : e.Course s trace) (hv : v.Admits trace)
    (hmem : .record event ∈ trace) : event.IsTrue e.time v trace ↔ ¬ event.Undeleted trace := by
  cases h with
  | denied =>
    obtain rfl : event = _ := by simpa using hmem
    exact iff_of_true trivial fun h => h
  | @handedOut time issuer identity request key hrequest hkey hid hidentity =>
    obtain rfl : event = _ := by simpa using hmem
    cases hkind : key.kind with
    | user => exact absurd (hkey.symm.trans hkind) hrequest
    | login => exact iff_of_true trivial fun h => h
    | reset => exact iff_of_true trivial fun h => h
  | @issued time token owner id saved request hlogin hrequest =>
    obtain rfl : event = .issued owner id .user := by simpa using hmem
    obtain ⟨-, hsave | hsave, -⟩ := hv
    · cases hsave
    · exact iff_of_true ⟨Vault.get?_of_save hsave, _, saved, by simp, Table.get?_insert_self _ _ _⟩
        fun h => h
  | @revoked time token owner id hlogin =>
    obtain rfl : event = .revoked owner id := by simpa using hmem
    exact iff_of_true (Table.get?_erase_self v (owner, id)) fun h => h
  | @retrieved time token owner id key huse hlive =>
    obtain rfl : event = .retrieved owner id := by simpa using hmem
    obtain ⟨hread | hread, -⟩ := hv
    · cases hread
    · exact iff_of_true ⟨key, by simp, Vault.get?_of_retrieve hread, by simpa using hlive⟩
        fun h => h
  | @expired time call owner id key f answer huse hexpired hkind hf =>
    obtain ⟨hread | hread, -⟩ := hv
    · cases hread
    have hfound : v.get? (owner, id) = some key := Vault.get?_of_retrieve hread
    have hevent : event = .expired owner id ∨ event = .denied call.operation .keyExpired := by
      cases answer <;> simpa [Exchange.expiry] using hmem
    obtain rfl | rfl := hevent
    · cases answer with
      | ok done =>
        refine iff_of_true ⟨⟨key, by simp, hexpired⟩, Table.get?_erase_self v (owner, id)⟩ ?_
        rintro ⟨cause, hcause⟩
        simp [Exchange.expiry] at hcause
      | error cause =>
        -- what is stored has not changed, and that is the expired key
        refine iff_of_false (fun htrue => ?_) fun h => h ⟨cause, by simp [Exchange.expiry]⟩
        cases htrue.2.symm.trans hfound
    · exact iff_of_true trivial fun h => h
  | _ => simp at hmem

end Entry

/-! ## Runs -/

/-- The runs on a backend are among these, whatever its outage. -/
theorem Withstands.call {s : KeyService} {after last : Vault} {steps : List (Entry × List Exchange)}
    (b : Plan.Backend) (now : Instant) (call : Call)
    (hafter : ((call.plan s now).run b).2.1.vault = after) (hrest : Withstands s after steps last) :
    Withstands s b.vault
      ((⟨now, call, ((call.plan s now).run b).1⟩, (call.plan s now).exchanges b) :: steps) last := by
  subst hafter
  exact .cons (Plan.exec_run _ b).1 (Plan.admits_exchanges _ b) (Plan.vault_run _ b ▸ hrest)

namespace Call

variable {s : KeyService} {now : Instant} {token : String} {claims : Claims} {key : Key}
  {b : Plan.Backend}

/-- What passes when an expired key is used. Its deletion may fail. -/
theorem exchanges_identify_of_expired (hclaims : Token.Carries s.secret token claims)
    (hkind : claims.kind = some .user) (hb : b.outage.retrieve = none)
    (hfound : b.vault.get? (claims.issuer, claims.id) = some key)
    (hexpired : key.isExpiredAt now = true) :
    ((identify token).plan s now).exchanges b =
      .retrieve claims.issuer claims.id (.ok key) ::
        Exchange.expiry "identify" claims.issuer claims.id
          (b.remove claims.issuer claims.id).1 := by
  have hread : b.retrieve claims.issuer claims.id = .ok key :=
    Plan.Backend.retrieve_of_found hb hfound
  simp only [plan, replying, KeyService.identify_of_carries hclaims hkind,
    KeyService.identifyClaims, hkind, Plan.bind, Plan.exchanges, hread, if_pos hexpired,
    KeyService.removeExpired]
  cases (b.remove claims.issuer claims.id).1 with
  | ok done => rfl
  | error cause => rfl

/-- If its deletion fails, the key is told to have been deleted, and nothing has changed. -/
theorem run_identify_of_undeleted {cause : Failure} (hclaims : Token.Carries s.secret token claims)
    (hkind : claims.kind = some .user) (hb : b.outage.retrieve = none)
    (hremove : b.outage.remove = some cause)
    (hfound : b.vault.get? (claims.issuer, claims.id) = some key)
    (hexpired : key.isExpiredAt now = true) :
    let r := ((identify token).plan s now).run b
    .expired claims.issuer claims.id ∈ r.2.2.events ∧ r.2.1.vault = b.vault := by
  have hfailed : (b.remove claims.issuer claims.id).1 = .error cause := by
    simp only [Plan.Backend.remove, hremove]
  have hpassed := exchanges_identify_of_expired hclaims hkind hb hfound hexpired
  rw [hfailed] at hpassed
  obtain ⟨-, -, hevents, -⟩ := Plan.exec_run ((identify token).plan s now) b
  refine ⟨?_, ?_⟩
  · simp [hevents, hpassed, Exchange.expiry, Exchange.event?]
  · rw [Plan.vault_run, hpassed]
    rfl

end Call

/-- **What events are worth when the store fails.** Calls are served over any stored keys, and any
call to the store may fail, at any time and with anything. Each event of each call is true of that
call, unless it tells that an expired key was deleted and the deletion has failed: a user key was
not stored before the call that issued it and is stored after it, a key is not stored after the call
that revoked it or deleted it as expired, and a key that was fetched was read and had not expired.
In that case the event is not true: the key is still stored. -/
theorem event_is_true_iff {s : KeyService} {v last : Vault} {e : Entry} {trace : List Exchange}
    {past future : List (Entry × List Exchange)}
    (h : Withstands s v (past ++ (e, trace) :: future) last) :
    ∃ before, Withstands s v past before ∧
      Withstands s (trace.foldl Exchange.onVault before) future last ∧
      ∀ event, .record event ∈ trace →
        (event.IsTrue e.time before trace ↔ ¬ event.Undeleted trace) := by
  obtain ⟨before, hpast, hrest⟩ := h.split
  cases hrest with
  | cons hexec hstore hfuture =>
    exact ⟨before, hpast, hfuture, fun event hmem =>
      (Entry.course_of_exec hexec).isTrue_iff hstore hmem⟩

/-- The store lets the second deletion of an expired key through: what is told then is true. -/
theorem second_deletion_is_told_truly :
    let s := KeyService.standard "secret"
    let key := s.userKeyOf "alice" "k1"
      ⟨"", .user, "", "", ⟨100, 5, by decide⟩, some ⟨200, 7, by decide⟩⟩
    let v : Vault := Table.empty.insert ("alice", "k1") (recordOf key)
    let down : Plan.Backend :=
      { vault := v, outage := { remove := some (.remote "store is down") }, ids := [] }
    let up : Plan.Backend := { vault := v, ids := [] }
    let use := (Call.identify key.secret).plan s
    ∃ before, Withstands s v
        [(⟨⟨200, 7, by decide⟩, .identify key.secret, ((use ⟨200, 7, by decide⟩).run down).1⟩,
          (use ⟨200, 7, by decide⟩).exchanges down)] before ∧
      .record (.expired "alice" "k1") ∈ (use ⟨201, 0, by decide⟩).exchanges up ∧
      (AuditEvent.expired "alice" "k1").IsTrue ⟨201, 0, by decide⟩ before
        ((use ⟨201, 0, by decide⟩).exchanges up) := by
  intro s key v down up use
  have hcarries : Token.Carries s.secret key.secret
      (KeyService.userClaims "alice" "k1" key.issuedAt key.expiresAt) :=
    Token.carries_issue s.secret ⟨by decide, by decide⟩
  have hfound : v.get? ("alice", "k1") = some (recordOf key) := Table.get?_insert_self _ _ _
  have hexpired : (recordOf key).isExpiredAt ⟨200, 7, by decide⟩ = true := by decide
  have hstill : (recordOf key).isExpiredAt ⟨201, 0, by decide⟩ = true := by decide
  obtain ⟨-, hkept⟩ :=
    Call.run_identify_of_undeleted (b := down) hcarries rfl rfl rfl hfound hexpired
  have hpassed := Call.exchanges_identify_of_expired (b := up) hcarries rfl rfl hfound hstill
  have htold : .record (.expired "alice" "k1") ∈ (use ⟨201, 0, by decide⟩).exchanges up := by
    rw [hpassed]
    simp [Exchange.expiry, Plan.Backend.remove, up, KeyService.userClaims]
  have hdeleted : ¬ (AuditEvent.expired "alice" "k1").Undeleted
      ((use ⟨201, 0, by decide⟩).exchanges up) := by
    rw [hpassed]
    simp [Exchange.expiry, Plan.Backend.remove, up, AuditEvent.Undeleted]
  have hrun := Withstands.call down ⟨200, 7, by decide⟩ (.identify key.secret) hkept
    (.call up ⟨201, 0, by decide⟩ (.identify key.secret) rfl (.nil _))
  obtain ⟨before, hpast, -, htrue⟩ := event_is_true_iff
    (show Withstands s v ([_] ++ _ :: []) _ from hrun)
  exact ⟨before, hpast, htold, (htrue _ htold).mpr hdeleted⟩

/-- An expired key whose deletion fails: it is told to have been deleted, and is still stored. -/
theorem undeleted_key_is_told_expired :
    let s := KeyService.standard "secret"
    let session := Token.issue s.secret
      (s.sessionClaims "alice" ⟨"", .login, "", "", ⟨50, 1, by decide⟩, none⟩ ⟨36050, 0, by decide⟩)
    let request : Key := ⟨"", .user, "", "", ⟨100, 5, by decide⟩, some ⟨200, 7, by decide⟩⟩
    let b : Plan.Backend :=
      { vault := .empty, ids := [.ok "k1"], outage := { remove := some (.remote "store is down") } }
    let issuing := (s.issue ⟨100, 9, by decide⟩ session request).run b
    ∃ key, issuing.1 = some (.ok key) ∧
      let use := ((Call.identify key.secret).plan s ⟨200, 7, by decide⟩).run issuing.2.1
      .expired "alice" "k1" ∈ use.2.2.events ∧
        use.2.1.vault.get? ("alice", "k1") = some (recordOf key) := by
  intro s session request b
  let key := s.userKeyOf "alice" "k1" request
  have hlogin : IsLogin s.secret ⟨100, 9, by decide⟩ session "alice" :=
    ⟨_, Token.carries_issue s.secret ⟨by decide, by decide⟩, rfl, rfl, rfl, by decide⟩
  have hcarries : Token.Carries s.secret key.secret
      (KeyService.userClaims "alice" "k1" key.issuedAt key.expiresAt) :=
    Token.carries_issue s.secret ⟨by decide, by decide⟩
  have hexpired : (recordOf key).isExpiredAt ⟨200, 7, by decide⟩ = true := by decide
  obtain ⟨hanswer, hvault, -⟩ := KeyService.run_issue_of_free request b rfl (by decide) hlogin rfl
    rfl rfl
  have houtage := (Plan.follows_run (s.issue ⟨100, 9, by decide⟩ session request) b).outage_eq
  have hfound := (congrArg (fun v : Vault => v.get? ("alice", "k1")) hvault).trans
    (Table.get?_insert_self _ _ _)
  obtain ⟨htold, hkept⟩ := Call.run_identify_of_undeleted hcarries rfl
    (congrArg Plan.Outage.retrieve houtage) (congrArg Plan.Outage.remove houtage) hfound hexpired
  exact ⟨key, hanswer, htold, hkept ▸ hfound⟩

end Gatehouse
