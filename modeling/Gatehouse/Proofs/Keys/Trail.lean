import Gatehouse.Proofs.Keys.Vault
import Mathlib.Data.Finset.Basic
import Mathlib.Data.Finset.Dedup

/-!
What the audit trail tells. An event is read as it is written, by its name and the texts beside it;
read in turn, the events of a run say which keys are stored (`AuditEvent.replay`). And the events
of one call follow from what came of the call, so that none is missing, doubled or told of another
key (`Entry.Audited`). Both are read off the courses that a call can take.
-/

namespace Gatehouse

/-! ## Reading events -/

namespace AuditEvent

/-- The text that an event tells under a name. -/
def text? (e : AuditEvent) (name : String) : Option String :=
  match e.details.lookup name with
  | some (.text t) => some t
  | _ => none

/-- Whose key an event tells of, and its id. -/
def place? (e : AuditEvent) : Option (String × String) := do
  return (← e.text? "identity", ← e.text? "key_id")

/-- The stored keys after an event, going by what it tells. -/
def replay (stored : Finset (String × String)) (e : AuditEvent) : Finset (String × String) :=
  match e.place? with
  | none => stored
  | some place =>
    if e.name = "key.issued" ∧ e.text? "key_type" = some "user" then insert place stored
    else if e.name = "key.revoked" ∨ e.name = "key.expired" then stored.erase place
    else stored

variable {stored : Finset (String × String)} {identity id operation : String} {kind : KeyKind}
  {reason : DenyReason}

theorem replay_issued_user (h : id ≠ "") :
    replay stored (issued identity id .user) = insert (identity, id) stored := by
  simp [replay, place?, text?, details, name, Key.textMember, KeyKind.toJson, KeyKind.word, h,
    List.lookup_cons]

/-- An empty id is not written, so the event names no key. -/
theorem replay_issued_blank : replay stored (issued identity "" kind) = stored := by
  simp [replay, place?, text?, details, Key.textMember, KeyKind.toJson, List.lookup_cons]

theorem replay_retrieved : replay stored (retrieved identity id) = stored := by
  simp [replay, place?, text?, details, name, List.lookup_cons]

theorem replay_revoked :
    replay stored (revoked identity id) = stored.erase (identity, id) := by
  simp [replay, place?, text?, details, name, List.lookup_cons]

theorem replay_expired :
    replay stored (expired identity id) = stored.erase (identity, id) := by
  simp [replay, place?, text?, details, name, List.lookup_cons]

theorem replay_denied : replay stored (denied operation reason) = stored := by
  simp [replay, place?, text?, details, List.lookup_cons]

end AuditEvent

namespace Vault

/-- The issuers and ids under which keys are stored. -/
def places (v : Vault) : Finset (String × String) := v.keys.toFinset

theorem mem_places {v : Vault} {place : String × String} :
    place ∈ v.places ↔ v.get? place ≠ none := by
  rw [places, List.mem_toFinset, Table.get?, ne_eq, Table.find_eq_none_iff, not_not]
  exact Iff.rfl

theorem places_insert (v : Vault) (place : String × String) (key : Key) :
    places (v.insert place key) = insert place v.places := by
  ext other
  rw [mem_places, Table.get?_insert, Finset.mem_insert, mem_places]
  by_cases h : other = place <;> simp [h]

theorem places_erase (v : Vault) (place : String × String) :
    places (v.erase place) = v.places.erase place := by
  ext other
  rw [mem_places, Table.get?_erase, Finset.mem_erase, mem_places]
  by_cases h : other = place <;> simp [h]

end Vault

/-! ## The events of a call -/

open Exchange (event?)

namespace Entry

variable {s : KeyService} {e : Entry} {trace : List Exchange} {v : Vault}

/-- What the audit trail tells of a call, by what came of it. -/
inductive Audited (s : KeyService) : Entry → List AuditEvent → Prop
  | issued {time : Instant} {issuer identity : String} {request key : Key}
    (hidentity : IssuedFor s.secret time issuer request.kind identity) :
    Audited s ⟨time, .issue issuer request, some (.ok (.issued key))⟩
      [.issued identity key.id key.kind]
  | revoked {time : Instant} {token owner id : String}
    (hlogin : IsLogin s.secret time token owner) :
    Audited s ⟨time, .revoke token id, some (.ok .revoked)⟩ [.revoked owner id]
  | retrieved {time : Instant} {token owner id : String} {key : Key}
    (hlogin : IsLogin s.secret time token owner) :
    Audited s ⟨time, .retrieve token id, some (.ok (.retrieved key))⟩ [.retrieved owner id]
  | identified {time : Instant} {token identity : String} :
    Audited s ⟨time, .identify token, some (.ok (.identity identity))⟩ []
  | denied {time : Instant} {call : Call} {f : Failure} {reason : DenyReason}
    (hf : f.denyReason? = some reason) (hreason : reason ≠ .keyExpired) :
    Audited s ⟨time, call, some (.error f)⟩ [.denied call.operation reason]
  | expired {time : Instant} {call : Call} {owner id : String} {f : Failure}
    (hf : f.denyReason? = some .keyExpired)
    (huse : Uses s owner id ⟨time, call, some (.error f)⟩) :
    Audited s ⟨time, call, some (.error f)⟩
      [.expired owner id, .denied call.operation .keyExpired]
  /-- Any other failure. -/
  | failed {time : Instant} {call : Call} {f : Failure} (hf : f.denyReason? = none) :
    Audited s ⟨time, call, some (.error f)⟩ []
  | crashed {time : Instant} {call : Call} : Audited s ⟨time, call, none⟩ []

/-- The answer of a call settles its events. -/
theorem Audited.unique {events events' : List AuditEvent} (h : e.Audited s events)
    (h' : e.Audited s events') : events = events' := by
  cases h with
  | issued hidentity =>
    obtain ⟨hidentity'⟩ | _ := h'
    rw [hidentity.unique hidentity']
  | revoked hlogin =>
    obtain _ | ⟨hlogin'⟩ := h'
    rw [hlogin.unique hlogin']
  | retrieved hlogin =>
    obtain _ | _ | ⟨hlogin'⟩ := h'
    rw [hlogin.unique hlogin']
  | identified =>
    cases h'
    rfl
  | crashed =>
    cases h'
    rfl
  | denied hf hreason =>
    cases h' with
    | denied hf' _ => rw [Option.some.inj (hf.symm.trans hf')]
    | expired hf' _ => exact absurd (Option.some.inj (hf.symm.trans hf')) hreason
    | failed hf' => cases hf.symm.trans hf'
  | expired hf huse =>
    cases h' with
    | denied hf' hreason => exact absurd (Option.some.inj (hf'.symm.trans hf)) hreason
    | expired _ huse' =>
      obtain ⟨rfl, rfl⟩ := huse.unique huse'
      rfl
    | failed hf' => cases hf.symm.trans hf'
  | failed hf =>
    cases h' with
    | denied hf' _ => cases hf.symm.trans hf'
    | expired hf' _ => cases hf.symm.trans hf'
    | failed _ => rfl

/-- The events of a call say what it did to the vault. -/
theorem Course.replay (h : e.Course s trace) (hv : v.Confirms trace)
    (hids : ∀ id, .freshId (.ok id) ∈ trace → id ≠ "") :
    (trace.foldl Exchange.onVault v).places =
      (trace.filterMap event?).foldl AuditEvent.replay v.places := by
  cases h with
  | @denied time call e reason _ _ _ =>
    show v.places = AuditEvent.replay v.places (.denied call.operation reason)
    rw [AuditEvent.replay_denied]
  | @handedOut time issuer identity request key _ _ _ _ =>
    show v.places = AuditEvent.replay v.places (.issued identity "" key.kind)
    rw [AuditEvent.replay_issued_blank]
  | @issued time token owner id saved request _ _ =>
    show Vault.places (v.insert (owner, id) _) = AuditEvent.replay v.places (.issued owner id .user)
    rw [Vault.places_insert, AuditEvent.replay_issued_user (hids id List.mem_cons_self)]
  | @revoked time token owner id _ =>
    show Vault.places (v.erase (owner, id)) = AuditEvent.replay v.places (.revoked owner id)
    rw [Vault.places_erase, AuditEvent.replay_revoked]
  | @retrieved time token owner id key _ _ =>
    show v.places = AuditEvent.replay v.places (.retrieved owner id)
    rw [AuditEvent.replay_retrieved]
  | @expired time call owner id key f answer _ _ _ _ =>
    -- the deletion is told of whatever came of it; a store without an outage has let it through
    obtain rfl : answer = .ok () := hv.2.1
    show Vault.places (v.erase (owner, id)) = AuditEvent.replay
      (AuditEvent.replay v.places (.expired owner id)) (.denied call.operation .keyExpired)
    rw [Vault.places_erase, AuditEvent.replay_denied, AuditEvent.replay_expired]
  | _ => rfl

/-- The events of a call follow from its answer. -/
theorem Course.audited (h : e.Course s trace) (hv : v.Confirms trace)
    (hids : ∀ f, .freshId (.error f) ∈ trace → f.denyReason? = none) :
    e.Audited s (trace.filterMap event?) := by
  cases h with
  | refused he => exact .failed he
  | denied _ he hreason => exact .denied he hreason
  | crashed _ => exact .crashed
  | @handedOut time issuer identity request key _ _ hid hidentity =>
    show Audited s _ [.issued identity "" key.kind]
    rw [← hid]
    exact .issued hidentity
  | vouched => exact .identified
  | @unnamed time token owner request f _ _ =>
    exact .failed (hids f List.mem_cons_self)
  | @unsaved time token owner id request f _ _ =>
    -- all that can keep a record out is another one in its place
    have hconflict : .error f = (v.save _).1 := hv.2.1
    refine .failed ?_
    unfold Vault.save at hconflict
    split at hconflict
    · cases hconflict
      rfl
    · cases hconflict
  | @issued time token owner id saved request hlogin hrequest =>
    have hidentity : IssuedFor s.secret time token request.kind owner := by
      rw [IssuedFor, hrequest]
      exact hlogin
    have hkind : (s.userKeyOf owner id request).kind = .user := hrequest
    show Audited s _ [.issued owner id .user]
    rw [← hkind]
    exact .issued hidentity
  | unrevoked hlogin => cases hv.1
  | revoked hlogin => exact .revoked hlogin
  | @unread time call owner id f g huse hf =>
    have hmissing : .error f = v.retrieve owner id := hv.1
    refine .failed ?_
    unfold Vault.retrieve at hmissing
    split at hmissing
    · cases hmissing
    · cases hmissing
      rcases hf with rfl | rfl
      · rfl
      · rfl
  | identified _ _ => exact .identified
  | retrieved huse _ => exact .retrieved huse.2.2
  | @expired time call owner id key f answer huse _ _ hf =>
    obtain rfl : answer = .ok () := hv.2.1
    exact .expired hf huse

end Entry

/-! ## The trail of a run -/

namespace Plan

variable {α : Type}

/-- What the source of ids answers is one of the answers to come, or that there are none. -/
theorem mem_ids_of_freshId {p : Plan α} {b : Backend} {r : Except Failure String}
    (h : .freshId r ∈ p.exchanges b) : r ∈ b.ids ∨ r = .error (.internal "no more ids") := by
  induction p generalizing b with
  | done a => cases h
  | crash => cases h
  | save key next ih =>
    obtain h | h := List.mem_cons.mp h
    · cases h
    · exact (ih _ h).imp_left fun hr => (follows_save b key).ids_suffix.mem hr
  | retrieve issuer id next ih =>
    obtain h | h := List.mem_cons.mp h
    · cases h
    · exact ih _ h
  | remove issuer id next ih =>
    obtain h | h := List.mem_cons.mp h
    · cases h
    · exact (ih _ h).imp_left fun hr => (follows_remove b issuer id).ids_suffix.mem hr
  | freshId next ih =>
    obtain h | h := List.mem_cons.mp h
    · cases h
      unfold Backend.freshId
      split
      · exact .inr rfl
      · next hids => exact .inl (hids ▸ List.mem_cons_self)
    · exact (ih _ h).imp_left fun hr => (follows_freshId b).ids_suffix.mem hr
  | record event next ih =>
    obtain h | h := List.mem_cons.mp h
    · cases h
    · exact ih h
  | notify notice next ih =>
    obtain h | h := List.mem_cons.mp h
    · cases h
    · exact ih h

/-- The events that calls leave in the audit trail, call by call. -/
def Backend.trail (s : KeyService) (b : Backend) : List Entry → List (List AuditEvent)
  | [] => []
  | e :: es =>
    ((e.call.plan s e.time).run b).2.2.events :: trail s ((e.call.plan s e.time).run b).2.1 es

end Plan

namespace Serves

variable {s : KeyService} {b last : Plan.Backend} {e : Entry} {es : List Entry}

/-- What passes in a call that is served, over a store without an outage. -/
theorem course_of_answer (hb : b.outage = {})
    (hanswer : ((e.call.plan s e.time).run b).1 = e.answer) :
    ∃ trace, trace = (e.call.plan s e.time).exchanges b ∧ e.Course s trace ∧
      b.vault.Confirms trace ∧ ((e.call.plan s e.time).run b).2.2.events = trace.filterMap event? ∧
      ((e.call.plan s e.time).run b).2.1.vault = trace.foldl Exchange.onVault b.vault := by
  obtain ⟨hexec, -, hevents, -⟩ := Plan.exec_run (e.call.plan s e.time) b
  rw [hanswer] at hexec
  exact ⟨_, rfl, Entry.course_of_exec hexec, Plan.confirms_exchanges _ hb, hevents,
    Plan.vault_run _ b⟩

theorem replay_trail (h : Serves s b es last) (hb : b.outage = {})
    (hids : ∀ id, .ok id ∈ b.ids → id ≠ "") :
    last.vault.places = (b.trail s es).flatten.foldl AuditEvent.replay b.vault.places := by
  induction h with
  | nil b => rfl
  | @cons b e es last hanswer hrest ih =>
    obtain ⟨trace, htrace, hcourse, hconfirms, hevents, hvault⟩ := course_of_answer hb hanswer
    have hfollows := Plan.follows_run (e.call.plan s e.time) b
    have hgiven : ∀ id, .freshId (.ok id) ∈ trace → id ≠ "" := by
      intro id hmem
      rw [htrace] at hmem
      rcases Plan.mem_ids_of_freshId hmem with hmem | hnone
      · exact hids id hmem
      · cases hnone
    have hnext := ih (hfollows.outage_eq.trans hb) fun id hid =>
      hids id (hfollows.ids_suffix.mem hid)
    rw [hnext, hvault, hcourse.replay hconfirms hgiven, Plan.Backend.trail, List.flatten_cons,
      List.foldl_append, hevents]

theorem audited_trail (h : Serves s b es last) (hb : b.outage = {})
    (hids : ∀ f, .error f ∈ b.ids → f.denyReason? = none) :
    List.Forall₂ (Entry.Audited s) es (b.trail s es) := by
  induction h with
  | nil b => exact .nil
  | @cons b e es last hanswer hrest ih =>
    obtain ⟨trace, htrace, hcourse, hconfirms, hevents, -⟩ := course_of_answer hb hanswer
    have hfollows := Plan.follows_run (e.call.plan s e.time) b
    refine .cons ?_ (ih (hfollows.outage_eq.trans hb) fun f hf =>
      hids f (hfollows.ids_suffix.mem hf))
    rw [hevents]
    refine hcourse.audited hconfirms ?_
    intro f hmem
    rw [htrace] at hmem
    rcases Plan.mem_ids_of_freshId hmem with hmem | hnone
    · exact hids f hmem
    · cases hnone
      rfl

end Serves

/-- **The audit trail tells the vault.** Any calls are served over a vault that was empty, by a store
without outages and a source that gives no empty id. Then the keys that are stored after them are
those of which the events tell that they were issued and neither revoked nor found expired since.
Moreover every call leaves exactly the events that its answer asks for. The latter supposes that no
failure of the source of ids is a rejection, since such a one would be passed on without an event. -/
theorem trail_tells_vault {s : KeyService} {ids : List (Except Failure String)} {es : List Entry}
    {last : Plan.Backend} (hids : ∀ id, .ok id ∈ ids → id ≠ "")
    (h : Serves s { vault := .empty, ids := ids } es last) :
    let b : Plan.Backend := { vault := .empty, ids := ids }
    last.vault.places = (b.trail s es).flatten.foldl AuditEvent.replay ∅ ∧
      ((∀ f, .error f ∈ ids → f.denyReason? = none) →
        List.Forall₂ (Entry.Audited s) es (b.trail s es)) :=
  ⟨h.replay_trail rfl hids, fun hsource => h.audited_trail rfl hsource⟩

/-- A key that is used when it has expired: the trail tells of its issue, of its end and of the
rejection, and nothing is stored. -/
theorem expired_key_leaves_trail :
    let s := KeyService.standard "secret"
    let session := Token.issue s.secret
      (s.sessionClaims "alice" ⟨"", .login, "", "", ⟨50, 1, by decide⟩, none⟩ ⟨36050, 0, by decide⟩)
    let request : Key := ⟨"", .user, "", "", ⟨100, 5, by decide⟩, some ⟨200, 7, by decide⟩⟩
    let key := s.userKeyOf "alice" "k1" request
    let b : Plan.Backend := { vault := .empty, ids := [.ok "k1"] }
    let issued : Entry := ⟨⟨100, 9, by decide⟩, .issue session request, some (.ok (.issued key))⟩
    let use : Entry := ⟨⟨200, 7, by decide⟩, .identify key.secret,
      some (.error (.unauthorized .keyExpired))⟩
    ∃ last, Serves s b [issued, use] last ∧ last.vault.places = ∅ ∧
      b.trail s [issued, use] =
        [[.issued "alice" "k1" .user], [.expired "alice" "k1", .denied "identify" .keyExpired]] := by
  intro s session request key b issued use
  have hlogin : IsLogin s.secret ⟨100, 9, by decide⟩ session "alice" :=
    ⟨_, Token.carries_issue s.secret ⟨by decide, by decide⟩, rfl, rfl, rfl, by decide⟩
  have hcarries : Token.Carries s.secret key.secret
      (KeyService.userClaims "alice" "k1" key.issuedAt key.expiresAt) :=
    Token.carries_issue s.secret ⟨by decide, by decide⟩
  have hexpiresAt : ∀ x, key.expiresAt = some x → x.InCalendar := by
    intro x hx
    cases hx
    decide
  obtain ⟨answer, answer', last, hrun⟩ :=
    Serves.exists_of_two (s := s) b issued.time use.time issued.call use.call
  have hissued : answer = some (.ok (.issued key)) := by
    cases hrun with
    | cons hanswer _ =>
      exact hanswer.symm.trans (KeyService.run_issue hlogin rfl (by decide) rfl rfl rfl)
  subst hissued
  have huse : answer' = some (.error (.unauthorized .keyExpired)) := by
    rcases KeyService.answer_of_use (by decide) rfl (show Serves s b (_ :: ([] ++ _ :: [])) _ from hrun)
      rfl rfl rfl (by decide) hexpiresAt rfl with ⟨⟨e, he, -⟩, -⟩ | ⟨-, hanswer⟩
    · cases he
    · exact hanswer
  subst huse
  have hids : ∀ id, .ok id ∈ b.ids → id ≠ "" := by
    intro id hid
    cases List.mem_singleton.mp hid
    decide
  have hsource : ∀ f, .error f ∈ b.ids → f.denyReason? = none := by
    intro f hf
    cases List.mem_singleton.mp hf
  obtain ⟨hplaces, haudited⟩ := trail_tells_vault hids hrun
  have haudited : List.Forall₂ (Entry.Audited s) [issued, use] (b.trail s [issued, use]) :=
    haudited hsource
  have htrail : b.trail s [issued, use] =
      [[.issued "alice" "k1" .user], [.expired "alice" "k1", .denied "identify" .keyExpired]] := by
    generalize b.trail s [issued, use] = trail at haudited
    obtain _ | ⟨hfirst, _ | ⟨hsecond, _ | _⟩⟩ := haudited
    have hissue : issued.Audited s [.issued "alice" "k1" .user] := .issued hlogin
    have hexpire : use.Audited s [.expired "alice" "k1", .denied "identify" .keyExpired] :=
      .expired rfl ⟨_, hcarries, rfl, rfl, rfl⟩
    rw [hfirst.unique hissue, hsecond.unique hexpire]
  have hempty : (b.trail s [issued, use]).flatten.foldl AuditEvent.replay ∅ = ∅ := by
    rw [htrail]
    show AuditEvent.replay (AuditEvent.replay (AuditEvent.replay ∅ (.issued "alice" "k1" .user))
      (.expired "alice" "k1")) (.denied "identify" .keyExpired) = ∅
    rw [AuditEvent.replay_denied, AuditEvent.replay_expired,
      AuditEvent.replay_issued_user (by decide), Finset.erase_insert (Finset.notMem_empty _)]
  exact ⟨last, hrun, hplaces.trans hempty, htrail⟩

end Gatehouse
