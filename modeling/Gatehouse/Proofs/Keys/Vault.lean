import Gatehouse.Proofs.Keys.Course
import Gatehouse.Proofs.Keys.Lifecycle

/-!
What is in the vault. A vault is what has passed (`Plan.vault_run`): an answered save puts a record
there, an answered removal takes one out, and nothing else touches it. Hence a vault that was
filled by the key service holds records of user keys only, each under its own issuer and id, with
the digest of the very token that the record determines.
-/

namespace Gatehouse

open KeyService (Result recordOf)

/-- The vault after something has passed. -/
def Exchange.onVault (v : Vault) : Exchange → Vault
  | .save key (.ok _) => v.insert (key.issuer, key.id) key
  | .remove issuer id (.ok _) => v.erase (issuer, id)
  | _ => v

/-- What the store answers, going by what is in it. No call to it fails. -/
def Exchange.Truthful (v : Vault) : Exchange → Prop
  | .save key answer => answer = (v.save key).1
  | .retrieve issuer id answer => answer = v.retrieve issuer id
  | .remove _ _ answer => answer = .ok ()
  | _ => True

/-- Every answer was true when it was given. -/
def Vault.Confirms (v : Vault) : List Exchange → Prop
  | [] => True
  | x :: xs => x.Truthful v ∧ Confirms (x.onVault v) xs

namespace Plan

variable {α : Type}

theorem vault_save (b : Backend) (key : Key) :
    Exchange.onVault b.vault (.save key (b.save key).1) = (b.save key).2.vault := by
  rw [Backend.save]
  split
  · rfl
  · rw [Vault.save]
    split
    · rfl
    · rfl

theorem vault_remove (b : Backend) (issuer id : String) :
    Exchange.onVault b.vault (.remove issuer id (b.remove issuer id).1) =
      (b.remove issuer id).2.vault := by
  rw [Backend.remove]
  split
  · rfl
  · rfl

theorem vault_freshId (b : Backend) :
    Exchange.onVault b.vault (.freshId b.freshId.1) = b.freshId.2.vault := by
  rw [Backend.freshId]
  split
  · rfl
  · rfl

theorem vault_run (p : Plan α) (b : Backend) :
    (p.run b).2.1.vault = (p.exchanges b).foldl Exchange.onVault b.vault := by
  induction p generalizing b with
  | done a => rfl
  | crash => rfl
  | save key next ih =>
    rw [exchanges, List.foldl_cons, vault_save]
    exact ih _ _
  | retrieve issuer id next ih =>
    rw [exchanges, List.foldl_cons]
    exact ih _ b
  | remove issuer id next ih =>
    rw [exchanges, List.foldl_cons, vault_remove]
    exact ih _ _
  | freshId next ih =>
    rw [exchanges, List.foldl_cons, vault_freshId]
    exact ih _ _
  | record event next ih =>
    rw [exchanges, List.foldl_cons]
    exact ih b
  | notify notice next ih =>
    rw [exchanges, List.foldl_cons]
    exact ih b

/-- A store without an outage answers what is in it. -/
theorem confirms_exchanges (p : Plan α) {b : Backend} (hb : b.outage = {}) :
    b.vault.Confirms (p.exchanges b) := by
  induction p generalizing b with
  | done a => trivial
  | crash => trivial
  | save key next ih =>
    refine ⟨by simp [Exchange.Truthful, Backend.save, hb], ?_⟩
    rw [vault_save]
    exact ih _ ((follows_save b key).outage_eq.trans hb)
  | retrieve issuer id next ih =>
    exact ⟨by simp [Exchange.Truthful, Backend.retrieve, Outage.answer, hb], ih _ hb⟩
  | remove issuer id next ih =>
    refine ⟨by simp [Exchange.Truthful, Backend.remove, hb], ?_⟩
    rw [vault_remove]
    exact ih _ ((follows_remove b issuer id).outage_eq.trans hb)
  | freshId next ih =>
    refine ⟨trivial, ?_⟩
    rw [vault_freshId]
    exact ih _ ((follows_freshId b).outage_eq.trans hb)
  | record event next ih => exact ⟨trivial, ih hb⟩
  | notify notice next ih => exact ⟨trivial, ih hb⟩

end Plan

/-! ## Records -/

/-- A user key with the digest of its own token. -/
def Key.IsRecord (secret : String) (key : Key) : Prop :=
  key.kind = .user ∧ key.secret = Vault.digest (Token.issue secret
    (KeyService.userClaims key.issuer key.id key.issuedAt key.expiresAt))

/-- Nothing but records, each under its own issuer and id. -/
def Vault.WellKept (secret : String) (v : Vault) : Prop :=
  ∀ place key, v.get? place = some key → place = (key.issuer, key.id) ∧ key.IsRecord secret

variable {s : KeyService}

/-- Whatever a call saves is a record. -/
theorem Entry.Course.isRecord {e : Entry} {trace : List Exchange} (h : e.Course s trace) {key : Key}
    {answer : Except Failure String} (hx : .save key answer ∈ trace) : key.IsRecord s.secret := by
  obtain ⟨past, future, rfl⟩ := List.append_of_mem hx
  obtain ⟨-, token, request, -, hkind, hkey, -⟩ := h.of_save
  rw [hkey]
  exact ⟨hkind, rfl⟩

namespace Vault.WellKept

variable {v : Vault}

theorem empty (secret : String) : WellKept secret Table.empty := by
  intro place key h
  cases h

theorem onVault {secret : String} (hv : v.WellKept secret) {x : Exchange}
    (hx : ∀ key answer, x = .save key answer → key.IsRecord secret) :
    (Exchange.onVault v x).WellKept secret := by
  intro place key hget
  unfold Exchange.onVault at hget
  split at hget
  · next saved answer =>
    rw [Table.get?_insert] at hget
    split at hget
    · next hplace =>
      cases hget
      exact ⟨hplace, hx key _ rfl⟩
    · exact hv place key hget
  · rw [Table.get?_erase] at hget
    split at hget
    · cases hget
    · exact hv place key hget
  · exact hv place key hget

theorem foldl {secret : String} {trace : List Exchange} (hv : v.WellKept secret)
    (htrace : ∀ key answer, .save key answer ∈ trace → key.IsRecord secret) :
    (trace.foldl Exchange.onVault v).WellKept secret := by
  induction trace generalizing v with
  | nil => exact hv
  | cons x trace ih =>
    refine ih (hv.onVault fun key answer hx => ?_) fun key answer hx => ?_
    · exact htrace key answer (hx ▸ List.mem_cons_self)
    · exact htrace key answer (List.mem_cons_of_mem x hx)

/-- A call keeps the vault in order. -/
theorem call {e : Entry} {b : Plan.Backend} (hb : b.vault.WellKept s.secret)
    (hanswer : ((e.call.plan s e.time).run b).1 = e.answer) :
    ((e.call.plan s e.time).run b).2.1.vault.WellKept s.secret := by
  have hexec := (Plan.exec_run (e.call.plan s e.time) b).1
  rw [hanswer] at hexec
  rw [Plan.vault_run]
  exact hb.foldl fun key answer hx => (Entry.course_of_exec hexec).isRecord hx

theorem serves {b last : Plan.Backend} {es : List Entry} (hb : b.vault.WellKept s.secret)
    (h : Serves s b es last) : last.vault.WellKept s.secret := by
  induction h with
  | nil b => exact hb
  | cons hanswer hrest ih => exact ih (hb.call hanswer)

end Vault.WellKept

/-- **The vault holds records of user keys only.** Whatever calls were made with whatever arguments,
and however the store failed: what is stored stands under its own issuer and id, is a user key, and
has for its secret the digest of the token of exactly the claims that follow from the record. -/
theorem vault_holds_records {b last : Plan.Backend} {es : List Entry} (hb : b.vault = .empty)
    (h : Serves s b es last) {owner id : String} {key : Key}
    (hget : last.vault.get? (owner, id) = some key) :
    key.issuer = owner ∧ key.id = id ∧ key.kind = .user ∧
      key.secret = Vault.digest (Token.issue s.secret {
        issuer := key.issuer
        subject := ""
        issuedAt := key.issuedAt.seconds
        expiresAt := key.expiresAt.map Instant.seconds
        id := key.id
        kind := some .user }) := by
  have hkept : b.vault.WellKept s.secret := hb ▸ Vault.WellKept.empty s.secret
  obtain ⟨hplace, hkind, hsecret⟩ := hkept.serves h (owner, id) key hget
  obtain ⟨rfl, rfl⟩ := Prod.mk.inj hplace
  exact ⟨rfl, rfl, hkind, hsecret⟩

/-- Nothing is left of what a request has filled in itself. -/
theorem prefilled_request_is_overwritten :
    let s := KeyService.standard "secret"
    let session := Token.issue s.secret
      (s.sessionClaims "alice" ⟨"", .login, "", "", ⟨50, 1, by decide⟩, none⟩ ⟨36050, 0, by decide⟩)
    let request : Key :=
      ⟨"k9", .user, "mallory", "forged", ⟨100, 5, by decide⟩, some ⟨200, 7, by decide⟩⟩
    ∃ e last key, Serves s { vault := .empty, ids := [.ok "k1"] } [e] last ∧
      e.call = .issue session request ∧ last.vault.get? ("alice", "k1") = some key ∧
      key.issuer = "alice" ∧ key.id = "k1" ∧ key.kind = .user ∧
      key.secret = Vault.digest (Token.issue s.secret
        ⟨"alice", "", 100, some 200, "k1", some .user⟩) := by
  intro s session request
  have hlogin : IsLogin s.secret ⟨100, 9, by decide⟩ session "alice" :=
    ⟨_, Token.carries_issue s.secret ⟨by decide, by decide⟩, rfl, rfl, rfl, by decide⟩
  obtain ⟨es, last, hes, hrun⟩ := Serves.exists_of_calls (s := s)
    { vault := .empty, ids := [.ok "k1"] } [(⟨100, 9, by decide⟩, .issue session request)]
  obtain ⟨e, rest, rfl, hfirst, hes⟩ := List.map_eq_cons_iff.mp hes
  obtain rfl := List.map_eq_nil_iff.mp hes
  obtain ⟨htime, hcall⟩ := Prod.mk.inj hfirst
  have hget : last.vault.get? ("alice", "k1") =
      some (recordOf (s.userKeyOf "alice" "k1" request)) := by
    obtain _ | @⟨_, _, _, _, -, hrest⟩ := hrun
    cases hrest
    rw [htime, hcall, Call.plan, (KeyService.run_replying _ _ _).2, KeyService.issue,
      if_neg (by decide)]
    rcases KeyService.run_userKey hlogin request (show ({ vault := .empty, ids := [.ok "k1"] } :
      Plan.Backend).outage = {} from rfl) with ⟨id, ids, hids, -, -, hvault⟩ | ⟨htaken, -⟩
    · obtain ⟨rfl, -⟩ : "k1" = id ∧ [] = ids := by simpa using hids
      exact (congrArg (·.get? ("alice", "k1")) hvault).trans (Table.get?_insert_self _ _ _)
    · cases htaken "k1" [] rfl
  obtain ⟨hissuer, hid, hkind, hsecret⟩ := vault_holds_records rfl hrun hget
  exact ⟨e, last, _, hrun, hcall, hget, hissuer, hid, hkind, hsecret⟩

end Gatehouse
