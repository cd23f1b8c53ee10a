import Gatehouse.Proofs.Keys.Refusal

/-!
One cell of the vault across one call. A user key stands in the vault under its owner and its id.
Any call, by anyone, either leaves that cell alone or clears it (`Entry.cell_step`): the owner
revokes the key, or somebody looks it up at or past its expiry. Only an issue could fill it, and
that under an id that was still to come.
-/

namespace Gatehouse

open KeyService (Result)

/-! ## The backend across a call -/

namespace Plan

/-- The ids that are still to come. -/
def Backend.idsToCome (b : Backend) : List String := b.ids.filterMap Except.toOption

/-- No call to the store fails, and the ids to come are among those of an earlier state. -/
structure Follows (b b' : Backend) : Prop where
  outage_eq : b'.outage = b.outage
  ids_suffix : b'.ids <:+ b.ids

theorem Follows.refl (b : Backend) : Follows b b := ⟨rfl, List.suffix_refl _⟩

theorem Follows.trans {a b c : Backend} (h : Follows a b) (h' : Follows b c) : Follows a c :=
  ⟨h'.outage_eq.trans h.outage_eq, h'.ids_suffix.trans h.ids_suffix⟩

theorem Follows.idsToCome_sublist {b b' : Backend} (h : Follows b b') :
    b'.idsToCome.Sublist b.idsToCome :=
  h.ids_suffix.sublist.filterMap _

theorem follows_save (b : Backend) (key : Key) : Follows b (b.save key).2 := by
  rw [Backend.save]
  split <;> exact ⟨rfl, List.suffix_refl _⟩

theorem follows_remove (b : Backend) (issuer id : String) : Follows b (b.remove issuer id).2 := by
  rw [Backend.remove]
  split <;> exact ⟨rfl, List.suffix_refl _⟩

theorem follows_freshId (b : Backend) : Follows b b.freshId.2 := by
  rw [Backend.freshId]
  split
  · exact .refl b
  · next id ids h => exact ⟨rfl, h ▸ List.suffix_cons id ids⟩

theorem follows_run {α : Type} (p : Plan α) (b : Backend) : Follows b (p.run b).2.1 := by
  induction p generalizing b with
  | done a => exact .refl b
  | crash => exact .refl b
  | save key next ih => exact (follows_save b key).trans (ih _ _)
  | retrieve issuer id next ih => exact ih _ b
  | remove issuer id next ih => exact (follows_remove b issuer id).trans (ih _ _)
  | freshId next ih => exact (follows_freshId b).trans (ih _ _)
  | record event next ih => exact ih b
  | notify notice next ih => exact ih b

/-- A plan that leaves the store alone leaves the vault as it was. -/
theorem LeavesStore.vault_run {α : Type} {p : Plan α} (hp : p.LeavesStore) (b : Backend) :
    (p.run b).2.1.vault = b.vault := by
  have hcalls : ∀ x ∈ p.exchanges b, x.call? = none := hp _ _ (exec_run p b).1
  clear hp
  induction p generalizing b with
  | done a => rfl
  | crash => rfl
  | save key next ih => cases hcalls _ List.mem_cons_self
  | retrieve issuer id next ih => cases hcalls _ List.mem_cons_self
  | remove issuer id next ih => cases hcalls _ List.mem_cons_self
  | freshId next ih =>
    have hids : b.freshId.2.vault = b.vault := by
      rw [Backend.freshId]
      split <;> rfl
    exact (ih _ _ fun x hx => hcalls x (List.mem_cons_of_mem _ hx)).trans hids
  | record event next ih => exact ih b fun x hx => hcalls x (List.mem_cons_of_mem _ hx)
  | notify notice next ih => exact ih b fun x hx => hcalls x (List.mem_cons_of_mem _ hx)

end Plan

/-! ## What a call does to one cell of the vault -/

namespace KeyService

variable {s : KeyService} {now : Instant} {token : String} {b : Plan.Backend}

theorem run_replying {α : Type} (p : Plan (Result α)) (reply : α → Reply) (b : Plan.Backend) :
    ((Call.replying p reply).run b).1 = (p.run b).1.map (·.map reply) ∧
      ((Call.replying p reply).run b).2.1 = (p.run b).2.1 := by
  rw [Call.replying]
  induction p generalizing b with
  | done a => exact ⟨rfl, rfl⟩
  | crash => exact ⟨rfl, rfl⟩
  | save key next ih => exact ih _ _
  | retrieve issuer id next ih => exact ih _ b
  | remove issuer id next ih => exact ih _ _
  | freshId next ih => exact ih _ _
  | record event next ih => exact ih b
  | notify notice next ih => exact ih b

/-- A user key is looked up whether its token has expired or not. -/
theorem identify_of_carries {claims : Claims} (h : Token.Carries s.secret token claims)
    (hkind : claims.kind = some .user) :
    s.identify now token = identifyClaims now "identify" claims := by
  rw [identify, Token.parse_of_carries h]
  by_cases hexpired : claims.isExpiredAt now = true
  · simp only [hexpired, hkind, if_true]
  · simp only [hexpired, Bool.false_eq_true, if_false]

/-- The use of a user key: there is no record, or the record tells. An expired one is deleted. -/
theorem run_identifyClaims (now : Instant) (op : String) {claims : Claims} (hkind : claims.kind = some .user)
    (hb : b.outage = {}) :
    ((identifyClaims now op claims).run b).1 =
        (match b.vault.get? (claims.issuer, claims.id) with
        | none => some (.error .notFound)
        | some key =>
          if key.isExpiredAt now then some (.error (.unauthorized .keyExpired))
          else some (.ok claims.issuer)) ∧
      ((identifyClaims now op claims).run b).2.1.vault =
        (match b.vault.get? (claims.issuer, claims.id) with
        | none => b.vault
        | some key =>
          if key.isExpiredAt now then b.vault.erase (claims.issuer, claims.id) else b.vault) := by
  simp only [identifyClaims, hkind, Plan.run, Plan.Backend.retrieve, Plan.Outage.answer, hb,
    Vault.retrieve]
  cases b.vault.get? (claims.issuer, claims.id) with
  | none => exact ⟨rfl, rfl⟩
  | some key =>
    by_cases hexpired : key.isExpiredAt now = true
    · simp [hexpired, removeExpired, deny, Plan.run, Plan.Backend.remove, hb, Vault.remove]
    · simp [hexpired, Plan.run]

/-- Revoking with a login key always comes to an end, whether there was a key or not. -/
theorem run_revoke {owner id : String} (h : IsLogin s.secret now token owner) (hid : id ≠ "")
    (hb : b.outage = {}) :
    ((s.revoke now token id).run b).1 = some (.ok ()) ∧
      ((s.revoke now token id).run b).2.1.vault = b.vault.erase (owner, id) := by
  have hne : ¬ id.isEmpty = true := fun he => hid (String.isEmpty_iff.mp he)
  rw [revoke, if_neg hne, login_of_isLogin "revoke key" h]
  simp [Plan.bind, Plan.run, Plan.Backend.remove, hb, Vault.remove]

/-- A record is fetched with a login key; an expired one is deleted. -/
theorem run_retrieve {owner id : String} (h : IsLogin s.secret now token owner) (hid : id ≠ "")
    (hb : b.outage = {}) :
    ((s.retrieve now token id).run b).2.1.vault =
      (match b.vault.get? (owner, id) with
      | none => b.vault
      | some key => if key.isExpiredAt now then b.vault.erase (owner, id) else b.vault) := by
  have hne : ¬ id.isEmpty = true := fun he => hid (String.isEmpty_iff.mp he)
  rw [retrieve, if_neg hne, login_of_isLogin "retrieve key" h]
  simp only [Plan.bind_eq, Plan.bind, Plan.run, Plan.Backend.retrieve, Plan.Outage.answer, hb,
    Vault.retrieve]
  cases b.vault.get? (owner, id) with
  | none => rfl
  | some key =>
    by_cases hexpired : key.isExpiredAt now = true
    · simp [hexpired, removeExpired, deny, Plan.bind, Plan.run, Plan.Backend.remove, hb,
        Vault.remove]
    · simp [hexpired, Plan.run]

/-- A user key is issued under the next id, if there is one that the owner's keys leave free. -/
theorem run_userKey {owner : String} (h : IsLogin s.secret now token owner) (request : Key)
    (hb : b.outage = {}) :
    (∃ id ids, b.ids = .ok id :: ids ∧
        ((s.userKey now token request).run b).1 = some (.ok (s.userKeyOf owner id request)) ∧
        ((s.userKey now token request).run b).2.1.ids = ids ∧
        ((s.userKey now token request).run b).2.1.vault =
          b.vault.insert (owner, id) (recordOf (s.userKeyOf owner id request))) ∨
      (∀ id ids, b.ids = .ok id :: ids → b.vault.contains (owner, id) = true) ∧
        (∃ e, ((s.userKey now token request).run b).1 = some (.error e)) ∧
        ((s.userKey now token request).run b).2.1.vault = b.vault := by
  rw [userKey, login_of_isLogin "issue user key" h]
  simp only [Plan.bind_eq, Plan.bind, Plan.run, Plan.Backend.freshId]
  cases hids : b.ids with
  | nil => exact .inr ⟨by simp, ⟨_, rfl⟩, rfl⟩
  | cons first ids =>
    cases first with
    | error e => exact .inr ⟨by simp, ⟨_, rfl⟩, rfl⟩
    | ok id =>
      simp only [Plan.run, Plan.Backend.save, hb, Vault.save]
      by_cases htaken : b.vault.contains (owner, id) = true
      · refine .inr ⟨by simp [htaken], ⟨.during "issue user key" .conflict, ?_⟩, ?_⟩
        all_goals simp [recordOf, userKeyOf, htaken, Plan.run]
      · refine .inl ⟨id, ids, rfl, ?_, ?_, ?_⟩
        all_goals simp [recordOf, userKeyOf, htaken, Plan.run]

/-- A request for a user key is granted under the next id, if that is free. -/
theorem run_issue {owner id : String} {ids : List (Except Failure String)} {request : Key}
    (h : IsLogin s.secret now token owner) (hkind : request.kind = .user)
    (hnanos : request.issuedAt.nanos ≠ 0) (hb : b.outage = {}) (hids : b.ids = .ok id :: ids)
    (hfree : b.vault.get? (owner, id) = none) :
    (((Call.issue token request).plan s now).run b).1 =
      some (.ok (.issued (s.userKeyOf owner id request))) := by
  rw [Call.plan, (run_replying _ _ _).1, issue, if_neg hnanos, hkind]
  rcases run_userKey h request hb with ⟨next, rest, hnext, hrun, -⟩ | ⟨htaken, -⟩
  · obtain ⟨hsame, -⟩ := List.cons.inj (hids.symm.trans hnext)
    cases hsame
    exact congrArg (Option.map (Except.map Reply.issued)) hrun
  · have hthere := htaken id ids hids
    simp [Table.contains, hfree] at hthere

/-- Only issuing a user key adds to the vault, and only under an id that was to come. -/
theorem get?_issue (issuer : String) (request : Key) (hb : b.outage = {}) {owner id : String}
    (hid : id ∉ b.idsToCome) :
    ((s.issue now issuer request).run b).2.1.vault.get? (owner, id) =
      b.vault.get? (owner, id) := by
  by_cases hkind : request.kind = .user
  · by_cases hnanos : request.issuedAt.nanos = 0
    · rw [issue, if_pos hnanos]
      rfl
    · rw [issue, if_neg hnanos, hkind]
      rcases login_cases s now "issue user key" issuer with ⟨holder, h, -⟩ | ⟨-, reason, h⟩
      · rcases run_userKey h request hb with ⟨next, ids, hids, -, -, hvault⟩ | ⟨-, -, hvault⟩
        · have hne : (owner, id) ≠ (holder, next) := by
            rintro ⟨⟩
            exact hid (by simp [Plan.Backend.idsToCome, hids, Except.toOption])
          rw [hvault, Table.get?_insert, if_neg hne]
        · rw [hvault]
      · simp only [userKey, h]
        rfl
  · rw [(leavesStore_issue s now issuer hkind).vault_run b]

end KeyService

/-! ## Calls that were made -/

/-- A call that was made: when it was, and what came back. Without an answer the call crashed. -/
structure Entry where
  time : Instant
  call : Call
  answer : Option (Result Reply)

namespace Entry

variable {s : KeyService} {now : Instant} {token i owner id : String} {b : Plan.Backend}

/-- The owner revokes the key. -/
def Revokes (s : KeyService) (owner id : String) : Entry → Prop
  | ⟨time, .revoke token i, answer⟩ =>
    i = id ∧ IsLogin s.secret time token owner ∧ answer = some (.ok .revoked)
  | _ => False

/-- The record of the key is looked up: by its token, whoever has it, or by its owner. -/
def Uses (s : KeyService) (owner id : String) : Entry → Prop
  | ⟨_, .identify token, _⟩ => ∃ claims, Token.Carries s.secret token claims ∧
    claims.kind = some .user ∧ claims.issuer = owner ∧ claims.id = id
  | ⟨time, .retrieve token i, _⟩ => i = id ∧ i ≠ "" ∧ IsLogin s.secret time token owner
  | _ => False

theorem Uses.unique {owner id owner' id' : String} {e : Entry} (h : e.Uses s owner id)
    (h' : e.Uses s owner' id') : owner = owner' ∧ id = id' := by
  obtain ⟨time, call, answer⟩ := e
  cases call with
  | issue => cases h
  | revoke => cases h
  | retrieve token i => exact ⟨h.2.2.unique h'.2.2, h.1.symm.trans h'.1⟩
  | identify token =>
    obtain ⟨claims, hcarries, -, howner, hid⟩ := h
    obtain ⟨claims', hcarries', -, howner', hid'⟩ := h'
    obtain rfl := hcarries.unique hcarries'
    exact ⟨howner.symm.trans howner', hid.symm.trans hid'⟩

/-- What ends the record of a key. -/
def Clears (s : KeyService) (owner id : String) (cell : Option Key) (e : Entry) : Prop :=
  e.Revokes s owner id ∨
    e.Uses s owner id ∧ ∃ key, cell = some key ∧ key.isExpiredAt e.time = true

/-- The cell after the call is empty if the call clears it, and as before if not. -/
def Settles (s : KeyService) (owner id : String) (e : Entry) (cell after : Option Key) : Prop :=
  e.Clears s owner id cell ∧ after = none ∨ ¬ e.Clears s owner id cell ∧ after = cell

/-- A call served at a time. -/
def serve (s : KeyService) (now : Instant) (c : Call) (b : Plan.Backend) : Entry :=
  ⟨now, c, ((c.plan s now).run b).1⟩

theorem settles_revoke (hb : b.outage = {}) :
    Settles s owner id (serve s now (.revoke token i) b) (b.vault.get? (owner, id))
      ((((Call.revoke token i).plan s now).run b).2.1.vault.get? (owner, id)) := by
  obtain ⟨hanswer, hstate⟩ := KeyService.run_replying (s.revoke now token i) (fun _ => .revoked) b
  rw [serve, Call.plan, hanswer, hstate]
  by_cases hi : i = ""
  · subst hi
    refine .inr ⟨?_, rfl⟩
    rintro (⟨-, -, hok⟩ | ⟨h, -⟩)
    · cases hok
    · exact h
  · rcases KeyService.login_cases s now "revoke key" token with ⟨holder, h, -⟩ | ⟨hnot, reason, h⟩
    · obtain ⟨hrun, hvault⟩ := KeyService.run_revoke h hi hb
      rw [hrun, hvault, Table.get?_erase]
      by_cases hcell : (owner, id) = (holder, i)
      · cases hcell
        exact .inl ⟨.inl ⟨rfl, h, rfl⟩, if_pos rfl⟩
      · refine .inr ⟨?_, if_neg hcell⟩
        rintro (⟨rfl, hlogin, -⟩ | ⟨h, -⟩)
        · exact hcell (by rw [hlogin.unique h])
        · exact h
    · have hplan : ¬ i.isEmpty = true := fun he => hi (String.isEmpty_iff.mp he)
      rw [KeyService.revoke, if_neg hplan, h]
      refine .inr ⟨?_, rfl⟩
      rintro (⟨-, hlogin, -⟩ | ⟨h, -⟩)
      · exact hnot _ hlogin
      · exact h

/-- A look at a record, wherever it is, clears the cell if it is the one and has expired. -/
theorem get?_of_looked_up (owner id : String) {vault after : Vault} {holder : String}
    (h : after = (match vault.get? (holder, i) with
      | none => vault
      | some key => if key.isExpiredAt now then vault.erase (holder, i) else vault)) :
    (((owner, id) = (holder, i) ∧
        ∃ key, vault.get? (owner, id) = some key ∧ key.isExpiredAt now = true) ∧
      after.get? (owner, id) = none) ∨
    (¬ ((owner, id) = (holder, i) ∧
        ∃ key, vault.get? (owner, id) = some key ∧ key.isExpiredAt now = true) ∧
      after.get? (owner, id) = vault.get? (owner, id)) := by
  subst h
  by_cases hcell : (owner, id) = (holder, i)
  · obtain ⟨rfl, rfl⟩ := Prod.mk.inj hcell
    cases hget : vault.get? (owner, id) with
    | none => exact .inr ⟨by simp, hget⟩
    | some key =>
      by_cases hexpired : key.isExpiredAt now = true
      · exact .inl ⟨⟨rfl, key, rfl, hexpired⟩, by simp [hexpired]⟩
      · refine .inr ⟨?_, by simp [hexpired, hget]⟩
        rintro ⟨-, found, hfound, h⟩
        rw [Option.some.inj hfound] at hexpired
        exact hexpired h
  · refine .inr ⟨fun h => hcell h.1, ?_⟩
    split
    · rfl
    · split
      · rw [Table.get?_erase, if_neg hcell]
      · rfl

theorem settles_retrieve (hb : b.outage = {}) :
    Settles s owner id (serve s now (.retrieve token i) b) (b.vault.get? (owner, id))
      ((((Call.retrieve token i).plan s now).run b).2.1.vault.get? (owner, id)) := by
  obtain ⟨-, hstate⟩ := KeyService.run_replying (s.retrieve now token i) .retrieved b
  rw [Call.plan, hstate]
  by_cases hi : i = ""
  · subst hi
    refine .inr ⟨?_, rfl⟩
    rintro (h | ⟨⟨-, h, -⟩, -⟩)
    · exact h
    · exact h rfl
  · rcases KeyService.login_cases s now "retrieve key" token with ⟨holder, h, -⟩ | ⟨hnot, _, h⟩
    · rcases get?_of_looked_up owner id (KeyService.run_retrieve h hi hb) with
        ⟨⟨hcell, hexpired⟩, hafter⟩ | ⟨hnot, hafter⟩
      · cases hcell
        exact .inl ⟨.inr ⟨⟨rfl, hi, h⟩, hexpired⟩, hafter⟩
      · refine .inr ⟨?_, hafter⟩
        rintro (h' | ⟨⟨rfl, -, hlogin⟩, hexpired⟩)
        · exact h'
        · exact hnot ⟨by rw [hlogin.unique h], hexpired⟩
    · have hplan : ¬ i.isEmpty = true := fun he => hi (String.isEmpty_iff.mp he)
      rw [KeyService.retrieve, if_neg hplan, h]
      refine .inr ⟨?_, rfl⟩
      rintro (h' | ⟨⟨-, -, hlogin⟩, -⟩)
      · exact h'
      · exact hnot _ hlogin

theorem settles_identify (hb : b.outage = {}) :
    Settles s owner id (serve s now (.identify token) b) (b.vault.get? (owner, id))
      ((((Call.identify token).plan s now).run b).2.1.vault.get? (owner, id)) := by
  obtain ⟨-, hstate⟩ := KeyService.run_replying (s.identify now token) .identity b
  rw [Call.plan, hstate]
  by_cases huser : ∃ claims, Token.Carries s.secret token claims ∧ claims.kind = some .user
  · obtain ⟨claims, hclaims, hkind⟩ := huser
    rw [KeyService.identify_of_carries hclaims hkind]
    rcases get?_of_looked_up owner id (KeyService.run_identifyClaims now "identify" hkind hb).2 with
      ⟨⟨hcell, hexpired⟩, hafter⟩ | ⟨hnot, hafter⟩
    · obtain ⟨rfl, rfl⟩ := Prod.mk.inj hcell
      exact .inl ⟨.inr ⟨⟨claims, hclaims, hkind, rfl, rfl⟩, hexpired⟩, hafter⟩
    · refine .inr ⟨?_, hafter⟩
      rintro (h | ⟨⟨c, hc, -, rfl, rfl⟩, hexpired⟩)
      · exact h
      · exact hnot ⟨by rw [hclaims.unique hc], hexpired⟩
  · have hother : ∀ claims, Token.Carries s.secret token claims → claims.kind ≠ some .user :=
      fun claims hc hk => huser ⟨claims, hc, hk⟩
    rw [(KeyService.leavesStore_identify s now hother).vault_run b]
    refine .inr ⟨?_, rfl⟩
    rintro (h | ⟨⟨c, hc, hk, -⟩, -⟩)
    · exact h
    · exact hother c hc hk

/-- One call and one cell of the vault whose id will not come again. -/
theorem cell_step {e : Entry} (hanswer : ((e.call.plan s e.time).run b).1 = e.answer)
    (hb : b.outage = {}) (hid : id ∉ b.idsToCome) :
    e.Settles s owner id (b.vault.get? (owner, id))
      (((e.call.plan s e.time).run b).2.1.vault.get? (owner, id)) := by
  obtain ⟨now, call, answer⟩ := e
  change ((call.plan s now).run b).1 = answer at hanswer
  subst hanswer
  cases call with
  | issue issuer request =>
    obtain ⟨-, hstate⟩ := KeyService.run_replying (s.issue now issuer request) .issued b
    refine .inr ⟨?_, ?_⟩
    · rintro (h | ⟨h, -⟩)
      · exact h
      · exact h
    · exact (congrArg (·.vault.get? (owner, id)) hstate).trans
        (KeyService.get?_issue issuer request hb hid)
  | revoke token i => exact settles_revoke hb
  | retrieve token i => exact settles_retrieve hb
  | identify token => exact settles_identify hb

/-- What ends a user key: its owner revokes it, or it is looked up when it has expired. -/
def Ends (s : KeyService) (key : Key) (e : Entry) : Prop :=
  e.Revokes s key.issuer key.id ∨
    e.Uses s key.issuer key.id ∧ ∃ x, key.expiresAt = some x ∧ x ≤ e.time

end Entry
end Gatehouse
