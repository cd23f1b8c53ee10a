import Gatehouse.Proofs.Keys.Vault

/-!
Owners side by side. A call that comes with a login key keeps to the records of the holder of that
key: it asks for no others and changes no others (`Entry.Course.within`). So two vaults with the
same records of one owner cannot be told apart by the calls of that owner (`Plan.run_alike`), and
whatever the vaults hold for others stays as it was.
-/

namespace Gatehouse

namespace Exchange

/-- If the exchange is about a record at all, it is about one of this owner. -/
def Within (owner : String) : Exchange → Prop
  | save key _ => key.issuer = owner
  | retrieve issuer _ _ => issuer = owner
  | remove issuer _ _ => issuer = owner
  | _ => True

/-- The source of ids is asked. -/
def isFreshId : Exchange → Bool
  | freshId _ => true
  | _ => false

variable {owner other id : String} {v v' : Vault} {trace : List Exchange}

/-- Vaults that agree on an owner go on to agree. -/
theorem get?_foldl_within (h : ∀ x ∈ trace, x.Within owner)
    (hv : ∀ id, v'.get? (owner, id) = v.get? (owner, id)) :
    (trace.foldl onVault v').get? (owner, id) = (trace.foldl onVault v).get? (owner, id) := by
  induction trace generalizing v v' with
  | nil => exact hv id
  | cons x trace ih =>
    refine ih (fun y hy => h y (List.mem_cons_of_mem x hy)) fun id => ?_
    unfold onVault
    split
    · rw [Table.get?_insert, Table.get?_insert, hv id]
    · rw [Table.get?_erase, Table.get?_erase, hv id]
    · exact hv id

/-- The records of others stay as they were. -/
theorem get?_foldl_of_ne (h : ∀ x ∈ trace, x.Within owner) (hne : other ≠ owner) :
    (trace.foldl onVault v).get? (other, id) = v.get? (other, id) := by
  induction trace generalizing v with
  | nil => rfl
  | cons x trace ih =>
    rw [List.foldl_cons, ih fun y hy => h y (List.mem_cons_of_mem x hy)]
    have hx : x.Within owner := h x List.mem_cons_self
    unfold onVault
    split
    · next key _ =>
      obtain rfl : key.issuer = owner := hx
      rw [Table.get?_insert, if_neg fun heq => hne (Prod.mk.inj heq).1]
    · next issuer _ _ =>
      obtain rfl : issuer = owner := hx
      rw [Table.get?_erase, if_neg fun heq => hne (Prod.mk.inj heq).1]
    · rfl

end Exchange

/-! ## Backends that one owner cannot tell apart -/

namespace Plan

/-- The same calls fail, the next `n` ids are the same, and so are the records of the owner. What is
stored for others is left open. -/
structure Backend.AlikeFor (owner : String) (n : Nat) (b b' : Backend) : Prop where
  outage_eq : b'.outage = b.outage
  ids_eq : b'.ids.take n = b.ids.take n
  record_eq : ∀ id, b'.vault.get? (owner, id) = b.vault.get? (owner, id)

namespace Backend.AlikeFor

variable {owner : String} {n : Nat} {b b' : Backend}

theorem save {key : Key} (hb : b.AlikeFor owner n b') (hkey : key.issuer = owner) :
    (b'.save key).1 = (b.save key).1 ∧ (b.save key).2.AlikeFor owner n (b'.save key).2 := by
  subst hkey
  have htaken : b'.vault.contains (key.issuer, key.id) = b.vault.contains (key.issuer, key.id) := by
    rw [Table.contains, Table.contains, hb.record_eq]
  unfold Backend.save
  rw [hb.outage_eq]
  cases b.outage.save with
  | some e => exact ⟨rfl, hb⟩
  | none =>
    simp only [Vault.save, htaken]
    split
    · exact ⟨rfl, rfl, hb.ids_eq, hb.record_eq⟩
    · refine ⟨rfl, rfl, hb.ids_eq, fun id => ?_⟩
      rw [Table.get?_insert, Table.get?_insert, hb.record_eq]

theorem retrieve (hb : b.AlikeFor owner n b') (id : String) :
    b'.retrieve owner id = b.retrieve owner id := by
  unfold Backend.retrieve Vault.retrieve
  rw [hb.outage_eq, hb.record_eq]

theorem remove (hb : b.AlikeFor owner n b') (id : String) :
    (b'.remove owner id).1 = (b.remove owner id).1 ∧
      (b.remove owner id).2.AlikeFor owner n (b'.remove owner id).2 := by
  unfold Backend.remove
  rw [hb.outage_eq]
  cases b.outage.remove with
  | some e => exact ⟨rfl, hb⟩
  | none =>
    refine ⟨rfl, rfl, hb.ids_eq, fun id' => ?_⟩
    rw [Vault.remove, Vault.remove, Table.get?_erase, Table.get?_erase, hb.record_eq]

theorem freshId (hb : b.AlikeFor owner (n + 1) b') :
    b'.freshId.1 = b.freshId.1 ∧ b.freshId.2.AlikeFor owner n b'.freshId.2 := by
  have hids := hb.ids_eq
  unfold Backend.freshId
  cases h : b.ids with
  | nil =>
    obtain h' : b'.ids = [] := by simpa [h] using hids
    simp only [h']
    exact ⟨trivial, hb.outage_eq, by rw [h, h'], hb.record_eq⟩
  | cons id ids =>
    cases h' : b'.ids with
    | nil => simp [h, h'] at hids
    | cons id' ids' =>
      obtain ⟨rfl, hrest⟩ : id' = id ∧ ids'.take n = ids.take n := by simpa [h, h'] using hids
      exact ⟨rfl, hb.outage_eq, hrest, hb.record_eq⟩

end Backend.AlikeFor

/-- The plan keeps to the records of one owner and asks for `n` ids at most, whatever the answers. -/
def KeepsTo {α : Type} (owner : String) (n : Nat) (p : Plan α) : Prop :=
  ∀ trace result, Exec p trace result →
    (∀ x ∈ trace, x.Within owner) ∧ trace.countP Exchange.isFreshId ≤ n

variable {α : Type} {owner : String} {n : Nat} {b b' : Backend} {x : Exchange} {p q : Plan α}

/-- What follows a first exchange keeps to what the whole plan does. -/
theorem KeepsTo.step (hp : p.KeepsTo owner n)
    (hstep : ∀ trace result, Exec q trace result → Exec p (x :: trace) result) :
    x.Within owner ∧ ∃ m, n = m + (if x.isFreshId then 1 else 0) ∧ q.KeepsTo owner m := by
  have hfirst := hp _ _ (hstep _ _ (exec_run q { vault := .empty, ids := [] }).1)
  refine ⟨hfirst.1 x List.mem_cons_self, n - (if x.isFreshId then 1 else 0), ?_, ?_⟩
  · have hcount := hfirst.2
    rw [List.countP_cons] at hcount
    omega
  · intro trace result h
    obtain ⟨hwithin, hcount⟩ := hp _ _ (hstep _ _ h)
    rw [List.countP_cons] at hcount
    exact ⟨fun y hy => hwithin y (List.mem_cons_of_mem x hy), by omega⟩

/-- The trail of a run is what passed in it. -/
theorem trail_run (p : Plan α) (b : Backend) :
    (p.run b).2.2 =
      ⟨(p.exchanges b).filterMap Exchange.call?, (p.exchanges b).filterMap Exchange.event?,
        (p.exchanges b).filterMap Exchange.notice?⟩ := by
  obtain ⟨-, hcalls, hevents, hnotices⟩ := exec_run p b
  rw [← hcalls, ← hevents, ← hnotices]

/-- The same passes on backends that are alike for the owner, and the same comes of it. -/
theorem run_alike (hp : p.KeepsTo owner n) (hb : b.AlikeFor owner n b') :
    p.exchanges b' = p.exchanges b ∧ (p.run b').1 = (p.run b).1 := by
  induction p generalizing n b b' with
  | done a => exact ⟨rfl, rfl⟩
  | crash => exact ⟨rfl, rfl⟩
  | save key next ih =>
    obtain ⟨hkey, m, rfl, hnext⟩ := hp.step (x := .save key (b.save key).1) fun _ _ h => .save h
    obtain ⟨hanswer, hafter⟩ := hb.save hkey
    obtain ⟨htrace, hresult⟩ := ih _ hnext hafter
    simp only [exchanges, run, hanswer, htrace]
    exact ⟨trivial, hresult⟩
  | retrieve issuer id next ih =>
    obtain ⟨rfl, m, rfl, hnext⟩ :=
      hp.step (x := .retrieve issuer id (b.retrieve issuer id)) fun _ _ h => .retrieve h
    obtain ⟨htrace, hresult⟩ := ih _ hnext hb
    simp only [exchanges, run, hb.retrieve, htrace]
    exact ⟨trivial, hresult⟩
  | remove issuer id next ih =>
    obtain ⟨rfl, m, rfl, hnext⟩ :=
      hp.step (x := .remove issuer id (b.remove issuer id).1) fun _ _ h => .remove h
    obtain ⟨hanswer, hafter⟩ := hb.remove id
    obtain ⟨htrace, hresult⟩ := ih _ hnext hafter
    simp only [exchanges, run, hanswer, htrace]
    exact ⟨trivial, hresult⟩
  | freshId next ih =>
    obtain ⟨-, m, rfl, hnext⟩ := hp.step (x := .freshId b.freshId.1) fun _ _ h => .freshId h
    obtain ⟨hanswer, hafter⟩ := hb.freshId
    obtain ⟨htrace, hresult⟩ := ih _ hnext hafter
    simp only [exchanges, run, hanswer, htrace]
    exact ⟨trivial, hresult⟩
  | record event next ih =>
    obtain ⟨-, m, rfl, hnext⟩ := hp.step (x := .record event) fun _ _ h => .record h
    obtain ⟨htrace, hresult⟩ := ih hnext hb
    exact ⟨congrArg (_ :: ·) htrace, hresult⟩
  | notify notice next ih =>
    obtain ⟨-, m, rfl, hnext⟩ := hp.step (x := .notify notice) fun _ _ h => .notify h
    obtain ⟨htrace, hresult⟩ := ih hnext hb
    exact ⟨congrArg (_ :: ·) htrace, hresult⟩

end Plan

/-! ## Calls that come with a login key -/

variable {s : KeyService} {now : Instant} {owner : String}

/-- A managing call is about the holder of its login key, and it asks for one id at most. -/
theorem Entry.Course.within {e : Entry} {trace : List Exchange} (h : e.Course s trace)
    (hlogin : IsLogin s.secret e.time e.call.token owner)
    (hcall : ∀ token, e.call ≠ .identify token) :
    (∀ x ∈ trace, x.Within owner) ∧ trace.countP Exchange.isFreshId ≤ 1 := by
  cases h with
  | unnamed => simp [Exchange.Within, Exchange.isFreshId]
  | unsaved h _ =>
    obtain rfl := h.unique hlogin
    exact ⟨by simp [Exchange.Within, KeyService.recordOf, KeyService.userKeyOf], Nat.le_refl 1⟩
  | issued h _ =>
    obtain rfl := h.unique hlogin
    exact ⟨by simp [Exchange.Within, KeyService.recordOf, KeyService.userKeyOf], Nat.le_refl 1⟩
  | unrevoked h =>
    obtain rfl := h.unique hlogin
    simp [Exchange.Within, Exchange.isFreshId]
  | revoked h =>
    obtain rfl := h.unique hlogin
    simp [Exchange.Within, Exchange.isFreshId]
  | @unread time call holder id e f huse hf =>
    cases call with
    | retrieve token i =>
      obtain rfl := huse.2.2.unique hlogin
      simp [Exchange.Within, Exchange.isFreshId]
    | identify token => exact absurd rfl (hcall token)
    | _ => cases huse
  | retrieved huse _ =>
    obtain rfl := huse.2.2.unique hlogin
    simp [Exchange.Within, Exchange.isFreshId]
  | identified => exact absurd rfl (hcall _)
  | @expired time call holder id key f answer huse _ _ _ =>
    cases call with
    | retrieve token i =>
      obtain rfl := huse.2.2.unique hlogin
      cases answer <;> simp [Exchange.Within, Exchange.isFreshId, Exchange.expiry]
    | identify token => exact absurd rfl (hcall token)
    | _ => cases huse
  | _ => simp [Exchange.Within, Exchange.isFreshId]

theorem Call.keepsTo {c : Call} (hlogin : IsLogin s.secret now c.token owner)
    (hcall : ∀ token, c ≠ .identify token) : (c.plan s now).KeepsTo owner 1 := by
  intro trace result h
  exact (Entry.course_of_exec (e := ⟨now, c, result⟩) h).within hlogin hcall

/-- **Owners neither see nor touch the keys of each other.** Issuing, revoking or fetching with the
login key of an owner comes to the same, with the same calls to the store, the same audit events and
the same notices, on any two backends that are alike for this owner. Afterwards they hold the same
records of the owner, and each holds for every other owner what it held before. -/
theorem owners_are_apart {c : Call} (hlogin : IsLogin s.secret now c.token owner)
    (hcall : ∀ token, c ≠ .identify token) {b b' : Plan.Backend} (hb : b.AlikeFor owner 1 b') :
    ((c.plan s now).run b').1 = ((c.plan s now).run b).1 ∧
      ((c.plan s now).run b').2.2 = ((c.plan s now).run b).2.2 ∧
      (∀ id, ((c.plan s now).run b').2.1.vault.get? (owner, id) =
        ((c.plan s now).run b).2.1.vault.get? (owner, id)) ∧
      ∀ other id, other ≠ owner →
        ((c.plan s now).run b).2.1.vault.get? (other, id) = b.vault.get? (other, id) ∧
          ((c.plan s now).run b').2.1.vault.get? (other, id) = b'.vault.get? (other, id) := by
  have hkeeps := Call.keepsTo hlogin hcall
  obtain ⟨htrace, hresult⟩ := Plan.run_alike hkeeps hb
  obtain ⟨hwithin, -⟩ := hkeeps _ _ (Plan.exec_run (c.plan s now) b).1
  simp only [Plan.vault_run, Plan.trail_run, htrace]
  refine ⟨hresult, trivial, fun id => Exchange.get?_foldl_within hwithin hb.record_eq, ?_⟩
  intro other id hne
  exact ⟨Exchange.get?_foldl_of_ne hwithin hne, Exchange.get?_foldl_of_ne hwithin hne⟩

/-- Names that run together to the same text: what belongs to `alice` and what to `al` stay apart. -/
theorem al_is_not_alice :
    let s := KeyService.standard "secret"
    let now : Instant := ⟨100, 9, by decide⟩
    let session := Token.issue s.secret
      (s.sessionClaims "al" ⟨"", .login, "", "", ⟨50, 1, by decide⟩, none⟩ ⟨36050, 0, by decide⟩)
    let mine : Key := ⟨"ice", .user, "al", "", ⟨60, 1, by decide⟩, none⟩
    let theirs : Key := ⟨"", .user, "alice", "", ⟨70, 1, by decide⟩, none⟩
    let b : Plan.Backend := { vault := Table.empty.insert ("al", "ice") mine, ids := [.ok "k1"] }
    let b' : Plan.Backend :=
      { vault := b.vault.insert ("alice", "") theirs, ids := [.ok "k1", .ok "k2"] }
    b.AlikeFor "al" 1 b' ∧
      (((Call.retrieve session "ice").plan s now).run b').1 =
        (((Call.retrieve session "ice").plan s now).run b).1 ∧
      (((Call.revoke session "ice").plan s now).run b').2.1.vault.get? ("alice", "") =
        some theirs := by
  intro s now session mine theirs b b'
  have hlogin : IsLogin s.secret now session "al" :=
    ⟨_, Token.carries_issue s.secret ⟨by decide, by decide⟩, rfl, rfl, rfl, by decide⟩
  have hb : b.AlikeFor "al" 1 b' := by
    refine ⟨rfl, rfl, fun id => ?_⟩
    show (b.vault.insert ("alice", "") theirs).get? ("al", id) = _
    rw [Table.get?_insert, if_neg (by simp)]
  obtain ⟨hresult, -⟩ := owners_are_apart (c := .retrieve session "ice") hlogin (by simp) hb
  obtain ⟨-, -, -, hothers⟩ := owners_are_apart (c := .revoke session "ice") hlogin (by simp) hb
  exact ⟨hb, hresult, (hothers "alice" "" (by decide)).2.trans (Table.get?_insert_self _ _ _)⟩

end Gatehouse
