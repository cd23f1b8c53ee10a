import Gatehouse.Proofs.Observe.Isolation
import Gatehouse.Proofs.Observe.Relations
import Gatehouse.Proofs.Observe.Service

/-!
Answers to devices. Against explicit grants, and where every observer is on a session, the answer to
a request can be read off the request and the grants alone (`Request.Answered`), and a request that
was not answered with success has changed nothing (`Hub.answer_tells_what_happened`). Nothing can go
wrong behind the checks: a session can always be ended, and the broker takes every message
(`Hub.SessionBacked`, which everything that happens to a hub keeps up).
-/

namespace Gatehouse.Observe

/-! ## What answer a request gets -/

/-- The first `auth` parameter of the query has this value, and the value is not empty. The query is
cut at every ampersand, question marks at its beginning left out. -/
def Request.Brings (r : Request) (key : String) : Prop :=
  key ≠ "" ∧ ∃ before after,
    Text.splitOn '&' (r.query.toList.dropWhile (· == '?')) =
      before ++ ("auth=".toList ++ key.toList) :: after ∧
    ∀ piece ∈ before, ¬ "auth=".toList <+: piece

/-- The answer to a request against explicit grants, as class and detail. What is wrong first
decides: the method, the path, the key, the observe value, the grant. -/
inductive Request.Answered (g : Grants) (r : Request) : String → Prop
  | methodNotAllowed (hmethod : r.method = .put ∨ r.method = .delete) : Answered g r "4.05"
  | badPath (hmethod : r.method = .get ∨ r.method = .post) (hpath : parsePath r.path = none) :
    Answered g r "4.00"
  | unauthorized {channel subtopic : String} (hmethod : r.method = .get ∨ r.method = .post)
    (hpath : parsePath r.path = some (channel, subtopic)) (hkey : ¬ ∃ key, r.Brings key) :
    Answered g r "4.01"
  | badObserve {channel subtopic key : String} (hmethod : r.method = .get)
    (hpath : parsePath r.path = some (channel, subtopic)) (hkey : r.Brings key)
    (hobserve : r.observe ≠ some 0 ∧ r.observe ≠ some 1) : Answered g r "4.00"
  | forbidden {channel subtopic key : String}
    (hasks : r.method = .post ∨ r.method = .get ∧ (r.observe = some 0 ∨ r.observe = some 1))
    (hpath : parsePath r.path = some (channel, subtopic)) (hkey : r.Brings key)
    (hgrant : g.get? (key, channel) = none) : Answered g r "4.03"
  | registered {channel subtopic key thing : String}
    (hasks : r.method = .get ∧ r.observe = some 0)
    (hpath : parsePath r.path = some (channel, subtopic)) (hkey : r.Brings key)
    (hgrant : g.get? (key, channel) = some thing) : Answered g r "2.05"
  | deregistered {channel subtopic key thing : String}
    (hasks : r.method = .get ∧ r.observe = some 1)
    (hpath : parsePath r.path = some (channel, subtopic)) (hkey : r.Brings key)
    (hgrant : g.get? (key, channel) = some thing) : Answered g r "2.02"
  | published {channel subtopic key thing : String} (hasks : r.method = .post)
    (hpath : parsePath r.path = some (channel, subtopic)) (hkey : r.Brings key)
    (hgrant : g.get? (key, channel) = some thing) : Answered g r "2.01"

variable {r : Request} {g : Grants} {key channel thing : String}

/-- No request calls for the answer that something went wrong inside. -/
theorem Request.Answered.ne_internal {code : String} (ha : r.Answered g code) : code ≠ "5.00" := by
  cases ha <;> decide

/-! ## The checks -/

theorem after?_eq_none_iff {start cs : List Char} :
    Text.after? start cs = none ↔ ¬ start <+: cs := by
  rw [Option.eq_none_iff_forall_ne_some, List.IsPrefix, not_exists]
  refine forall_congr' fun rest => ?_
  rw [ne_eq, Text.after?_eq_some_iff, eq_comm]

/-- The first piece that begins so, by what follows the beginning. -/
theorem findSome?_after?_eq_some_iff {start value : List Char} {pieces : List (List Char)} :
    pieces.findSome? (Text.after? start) = some value ↔
      ∃ before after, pieces = before ++ (start ++ value) :: after ∧
        ∀ piece ∈ before, ¬ start <+: piece := by
  simp only [List.findSome?_eq_some_iff, Text.after?_eq_some_iff, after?_eq_none_iff]
  constructor
  · rintro ⟨before, piece, after, hpieces, rfl, hbefore⟩
    exact ⟨before, after, hpieces, hbefore⟩
  · rintro ⟨before, after, hpieces, hbefore⟩
    exact ⟨before, _, after, hpieces, rfl, hbefore⟩

theorem authKey_eq_some_iff : authKey r.query = some key ↔ r.Brings key := by
  rw [Request.Brings, ← findSome?_after?_eq_some_iff, authKey]
  cases (Text.splitOn '&' (r.query.toList.dropWhile (· == '?'))).findSome?
      (Text.after? "auth=".toList) with
  | none => simp
  | some value =>
    have hvalue : String.ofList value = key ↔ value = key.toList := by
      rw [← String.toList_inj, String.toList_ofList]
    have hempty : value = key.toList → (value = [] ↔ key = "") := by
      rintro rfl
      exact String.toList_eq_nil_iff
    simp only [Option.ite_none_left_eq_some, List.isEmpty_iff, Option.some.injEq, hvalue]
    constructor
    · rintro ⟨hne, rfl⟩
      exact ⟨fun hkey => hne ((hempty rfl).mpr hkey), rfl⟩
    · rintro ⟨hne, rfl⟩
      exact ⟨fun hnil => hne ((hempty rfl).mp hnil), rfl⟩

theorem actionOf_eq_none_iff {method : Method} {observe : Option Nat} :
    actionOf method observe = none ↔ (method = .put ∨ method = .delete) ∨
      method = .get ∧ observe ≠ some 0 ∧ observe ≠ some 1 := by
  simp only [Option.eq_none_iff_forall_ne_some, ne_eq, actionOf_eq_some_iff]
  constructor
  · intro hnone
    have hsubscribe := hnone .subscribe
    have hunsubscribe := hnone .unsubscribe
    have hpublish := hnone .publish
    cases method <;> simp_all
  · rintro ((rfl | rfl) | ⟨rfl, hregister, hderegister⟩) action
    · cases action <;> simp
    · cases action <;> simp
    · cases action <;> simp [hregister, hderegister]

theorem check_eq_ok_iff :
    g.check key channel = .ok thing ↔ g.get? (key, channel) = some thing := by
  rw [Grants.check]
  cases g.get? (key, channel) <;> simp

theorem check_of_none (hgrant : g.get? (key, channel) = none) :
    g.check key channel = .error (.unauthorized .accessDenied) := by
  rw [Grants.check, hgrant]

namespace Hub

/-! ## Nothing goes wrong behind the checks -/

/-- Every observer is on a session, and the broker is in order. -/
structure SessionBacked (h : Hub) : Prop where
  onSession : ∀ o < h.observers.length, ∃ i, h.sessionOf? o = some i
  broker : h.broker.outage = none

variable {h h' : Hub}

theorem SessionBacked.of_quiet (hh : h.SessionBacked) (hq : Quiet h h')
    (hbroker : h'.broker.outage = none) : h'.SessionBacked where
  onSession o ho := by
    rw [hq.sessionOf?_eq]
    exact hh.onSession o (hq.observers_length ▸ ho)
  broker := hbroker

/-- Only observers and broker count. -/
theorem SessionBacked.of_same (hh : h.SessionBacked) (hobservers : h'.observers = h.observers)
    (hbroker : h'.broker = h.broker) : h'.SessionBacked where
  onSession o ho := by
    rw [sessionOf?, hobservers]
    exact hh.onSession o (hobservers ▸ ho)
  broker := by rw [hbroker, hh.broker]

/-- An observer on a session can always be cancelled. -/
theorem SessionBacked.cancel_ok (hh : h.SessionBacked) (o : ObserverId) :
    (h.cancel o).1 = .ok () := by
  rw [cancel]
  cases hx : h.observers[o]? with
  | none => rfl
  | some x =>
    obtain ⟨i, hi⟩ := hh.onSession o (List.getElem?_eq_some_iff.mp hx).1
    obtain ⟨y, next, hy, hlink⟩ := exists_link hi
    obtain rfl : x = y := Option.some.inj (hx.symm.trans hy)
    simp only [hlink]

theorem broker_cancel (h : Hub) (o : ObserverId) : (h.cancel o).2.broker = h.broker := by
  rw [cancel]
  split
  · rfl
  · split
    · rfl
    · dsimp only
      split <;> rfl

theorem SessionBacked.cancelLeft (hh : h.SessionBacked) (left : Option ObserverId) :
    (h.cancelLeft left).1 = .ok () ∧ (h.cancelLeft left).2.SessionBacked := by
  cases left with
  | none => exact ⟨rfl, hh⟩
  | some o =>
    refine ⟨?_, hh.of_quiet (quiet_cancelLeft h (some o)) ?_⟩
    · show unsubscribed (h.cancel o).1 = .ok ()
      rw [hh.cancel_ok o, unsubscribed]
    · show (h.cancel o).2.broker.outage = none
      rw [broker_cancel, hh.broker]

theorem SessionBacked.put (hh : h.SessionBacked) (endpoint token : String) (o : ObserverId) :
    (h.put endpoint token o).1 = .ok () ∧ (h.put endpoint token o).2.SessionBacked :=
  have hplaced : SessionBacked { h with registry := (h.registry.put endpoint token o).2 } :=
    hh.of_same rfl rfl
  hplaced.cancelLeft (h.registry.put endpoint token o).1

theorem SessionBacked.removeIf (hh : h.SessionBacked) (endpoint token : String)
    (test : ObserverId → Bool) :
    (h.removeIf endpoint token test).1 = .ok () ∧
      (h.removeIf endpoint token test).2.SessionBacked :=
  have htaken : SessionBacked { h with registry := (h.registry.takeIf endpoint token test).2 } :=
    hh.of_same rfl rfl
  htaken.cancelLeft (h.registry.takeIf endpoint token test).1

theorem SessionBacked.addObserver (hh : h.SessionBacked) (token : String) (s : SessionId) :
    (h.addObserver (.onSession token s)).2.SessionBacked where
  onSession o ho := by
    rcases Nat.lt_or_ge o h.observers.length with hold | hnew
    · rw [sessionOf?_addObserver _ hold]
      exact hh.onSession o hold
    · have hlength : o < h.observers.length + 1 := by simpa [Hub.addObserver] using ho
      obtain rfl : o = h.observers.length := by omega
      exact ⟨s, by simp [sessionOf?, Hub.addObserver, Observer.onSession, Link.session?]⟩
  broker := hh.broker

theorem SessionBacked.publish (hh : h.SessionBacked) {access : AccessCheck} {m : Message}
    (now : Instant) (haccess : access key m.channel = .ok thing) :
    (h.publish access now key m).result = .ok () ∧
      (h.publish access now key m).hub.SessionBacked := by
  have htaken : ∀ p, (h.broker.publish p).1 = .ok () ∧
      (h.broker.publish p).2.outage = none := by
    intro p
    simp only [Broker.publish, hh.broker, and_self]
  have hquiet := quiet_publish access now h key m
  rw [publish_of_ok now haccess] at hquiet ⊢
  obtain ⟨hresult, hbroker⟩ := htaken ⟨m.subject, stamp now thing m⟩
  refine ⟨?_, hh.of_quiet hquiet hbroker⟩
  dsimp only
  rw [hresult]
  rfl

/-- An order that is let through succeeds. -/
theorem SessionBacked.carryOut (hh : h.SessionBacked) {access : AccessCheck} {o : Order}
    (haccess : access o.key o.channel = .ok thing) (now : Instant) (s : SessionId) (r : Request) :
    (h.carryOut access now s r o).result = .ok () ∧
      (h.carryOut access now s r o).hub.SessionBacked := by
  have hauthorized := authorize_eq_ok_iff.mpr haccess
  rw [Hub.carryOut]
  cases o.action with
  | subscribe =>
    simp only [hauthorized]
    obtain ⟨hresult, hput⟩ := (hh.addObserver r.token s).put _ _ _
    exact ⟨hresult, hput.of_same rfl rfl⟩
  | unsubscribe =>
    simp only [unsubscribe, hauthorized]
    exact hh.removeIf _ _ _
  | publish => exact hh.publish now haccess

/-! ## Requests -/

variable {access : AccessCheck} {now : Instant} {s : SessionId} {o : Order}

theorem respond_of_misformed {code : ResponseCode} (horder : r.order = .error code) :
    h.respond access now s r = ⟨⟨code, r.token⟩, h, []⟩ := by
  rw [respond, horder]

theorem respond_token (access : AccessCheck) (now : Instant) (h : Hub) (s : SessionId)
    (r : Request) : (h.respond access now s r).result.token = r.token := by
  rw [Hub.respond]
  split
  · rfl
  · dsimp only
    split <;> rfl

theorem respond_of_no_grant (horder : r.order = .ok o)
    (hgrant : g.get? (o.key, o.channel) = none) :
    h.respond g.check now s r = ⟨⟨.forbidden, r.token⟩, h, []⟩ := by
  obtain ⟨operation, hcarried⟩ := carryOut_of_error h (check_of_none hgrant) now s r
  simp only [respond, horder, hcarried]
  rfl

theorem SessionBacked.respond_of_granted (hh : h.SessionBacked) (horder : r.order = .ok o)
    (hgrant : g.get? (o.key, o.channel) = some thing) :
    (h.respond g.check now s r).result = ⟨o.action.success, r.token⟩ := by
  obtain ⟨hresult, -⟩ := hh.carryOut (check_eq_ok_iff.mpr hgrant) now s r
  simp only [respond, horder, hresult]

theorem SessionBacked.respond (hh : h.SessionBacked) (access : AccessCheck) (now : Instant)
    (s : SessionId) (r : Request) : (h.respond access now s r).hub.SessionBacked := by
  rw [respond_hub]
  cases r.order with
  | error code => exact hh
  | ok o =>
    cases haccess : access o.key o.channel with
    | ok thing => exact (hh.carryOut haccess now s r).2
    | error e =>
      obtain ⟨operation, hcarried⟩ := carryOut_of_error h haccess now s r
      dsimp only
      rw [hcarried]
      exact hh

theorem SessionBacked.after (hh : h.SessionBacked) (e : Event) : (h.after e).SessionBacked := by
  cases e with
  | request access now s r =>
    rw [Hub.after]
    split
    · exact hh.respond access now s r
    · exact hh
  | wake i =>
    rw [Hub.after]
    split
    · cases hi : h.waiters[i]? with
      | none =>
        rw [wake, hi]
        exact hh
      | some waiter =>
        rw [wake_hub h waiter.1 hi]
        have hbacked : SessionBacked { h with waiters := h.waiters.eraseIdx i } :=
          hh.of_same rfl rfl
        exact (hbacked.removeIf _ _ _).2
    · exact hh
  | _ => exact hh.of_same rfl rfl

theorem SessionBacked.served (hh : h.SessionBacked) (es : List Event) :
    (h.served es).SessionBacked := by
  induction es generalizing h with
  | nil => exact hh
  | cons e es ih => exact ih (hh.after e)

/-! ## The answer -/

/-- A request whose form is wrong gets the answer that the first thing wrong calls for. -/
theorem answered_of_misformed {code : ResponseCode} (horder : r.order = .error code) :
    r.Answered g code.dotted := by
  rw [Request.order] at horder
  split at horder
  · next hmethod =>
    cases horder
    exact .methodNotAllowed hmethod
  · next hother =>
    have hmethod : r.method = .get ∨ r.method = .post := by
      cases hm : r.method <;> simp [hm] at hother ⊢
    cases hpath : parsePath r.path with
    | none =>
      rw [hpath] at horder
      cases horder
      exact .badPath hmethod hpath
    | some parts =>
      obtain ⟨channel, subtopic⟩ := parts
      cases hkey : authKey r.query with
      | none =>
        simp only [hpath, hkey] at horder
        cases horder
        refine .unauthorized hmethod hpath fun hbrings => ?_
        obtain ⟨key, hbrings⟩ := hbrings
        rw [authKey_eq_some_iff.mpr hbrings] at hkey
        cases hkey
      | some key =>
        cases hasks : actionOf r.method r.observe with
        | some action => simp [hpath, hkey, hasks] at horder
        | none =>
          simp only [hpath, hkey, hasks] at horder
          cases horder
          obtain ⟨hget, hobserve⟩ := (actionOf_eq_none_iff.mp hasks).resolve_left hother
          exact .badObserve hget hpath (authKey_eq_some_iff.mp hkey) hobserve

/-- The answer that a request gets is the one that its parts and the grants call for. -/
theorem SessionBacked.answered_respond (hh : h.SessionBacked) (g : Grants) (now : Instant)
    (s : SessionId) (r : Request) :
    r.Answered g (h.respond g.check now s r).result.code.dotted := by
  cases horder : r.order with
  | error code =>
    rw [respond_of_misformed horder]
    exact answered_of_misformed horder
  | ok o =>
    obtain ⟨hpath, hkey, hasks⟩ := order_eq_ok_iff.mp horder
    rw [authKey_eq_some_iff] at hkey
    rw [actionOf_eq_some_iff] at hasks
    cases hgrant : g.get? (o.key, o.channel) with
    | none =>
      rw [respond_of_no_grant horder hgrant]
      refine .forbidden ?_ hpath hkey hgrant
      cases haction : o.action with
      | subscribe =>
        rw [haction] at hasks
        exact .inr ⟨hasks.1, .inl hasks.2⟩
      | unsubscribe =>
        rw [haction] at hasks
        exact .inr ⟨hasks.1, .inr hasks.2⟩
      | publish =>
        rw [haction] at hasks
        exact .inl hasks
    | some thing =>
      rw [hh.respond_of_granted horder hgrant]
      cases haction : o.action with
      | subscribe =>
        rw [haction] at hasks
        exact .registered hasks hpath hkey hgrant
      | unsubscribe =>
        rw [haction] at hasks
        exact .deregistered hasks hpath hkey hgrant
      | publish =>
        rw [haction] at hasks
        exact .published hasks hpath hkey hgrant

theorem dotted_success (a : Action) : a.success.dotted ∈ ["2.01", "2.02", "2.05"] := by
  cases a <;> decide

/-- Only success changes the hub. -/
theorem SessionBacked.respond_hub_eq (hh : h.SessionBacked)
    (hcode : (h.respond g.check now s r).result.code.dotted ∉ ["2.01", "2.02", "2.05"]) :
    (h.respond g.check now s r).hub = h := by
  cases horder : r.order with
  | error code => rw [respond_of_misformed horder]
  | ok o =>
    cases hgrant : g.get? (o.key, o.channel) with
    | none => rw [respond_of_no_grant horder hgrant]
    | some thing =>
      rw [hh.respond_of_granted horder hgrant] at hcode
      exact absurd (dotted_success o.action) hcode

/-- No other answer is called for. -/
theorem SessionBacked.dotted_of_answered (hh : h.SessionBacked) {code : String}
    (ha : r.Answered g code) : (h.respond g.check now s r).result.code.dotted = code := by
  have hserved : r.method = .get ∨ r.method = .post →
      ¬ (r.method = .put ∨ r.method = .delete) := by
    rintro (hmethod | hmethod)
    · simp [hmethod]
    · simp [hmethod]
  cases ha with
  | methodNotAllowed hmethod =>
    have horder : r.order = .error .methodNotAllowed := if_pos hmethod
    rw [respond_of_misformed horder]
    rfl
  | badPath hmethod hpath =>
    have horder : r.order = .error .badRequest := by
      simp only [Request.order, if_neg (hserved hmethod), hpath]
    rw [respond_of_misformed horder]
    rfl
  | unauthorized hmethod hpath hkey =>
    have hnone : authKey r.query = none := by
      rw [Option.eq_none_iff_forall_ne_some]
      exact fun key hsome => hkey ⟨key, authKey_eq_some_iff.mp hsome⟩
    have horder : r.order = .error .unauthorized := by
      simp only [Request.order, if_neg (hserved hmethod), hpath, hnone]
    rw [respond_of_misformed horder]
    rfl
  | badObserve hmethod hpath hkey hobserve =>
    have hasks := actionOf_eq_none_iff.mpr (.inr ⟨hmethod, hobserve⟩)
    have horder : r.order = .error .badRequest := by
      simp only [Request.order, if_neg (hserved (.inl hmethod)), hpath,
        authKey_eq_some_iff.mpr hkey, hasks]
    rw [respond_of_misformed horder]
    rfl
  | forbidden hasks hpath hkey hgrant =>
    obtain ⟨action, haction⟩ : ∃ action, actionOf r.method r.observe = some action := by
      rcases hasks with hpost | ⟨hget, hregister | hderegister⟩
      · exact ⟨.publish, actionOf_eq_some_iff.mpr hpost⟩
      · exact ⟨.subscribe, actionOf_eq_some_iff.mpr ⟨hget, hregister⟩⟩
      · exact ⟨.unsubscribe, actionOf_eq_some_iff.mpr ⟨hget, hderegister⟩⟩
    have horder := order_eq_ok_iff (o := ⟨action, _, _, _⟩) |>.mpr
      ⟨hpath, authKey_eq_some_iff.mpr hkey, haction⟩
    rw [respond_of_no_grant horder hgrant]
    rfl
  | registered hasks hpath hkey hgrant =>
    have horder := order_eq_ok_iff (o := ⟨.subscribe, _, _, _⟩) |>.mpr
      ⟨hpath, authKey_eq_some_iff.mpr hkey, actionOf_eq_some_iff.mpr hasks⟩
    rw [hh.respond_of_granted horder hgrant]
    rfl
  | deregistered hasks hpath hkey hgrant =>
    have horder := order_eq_ok_iff (o := ⟨.unsubscribe, _, _, _⟩) |>.mpr
      ⟨hpath, authKey_eq_some_iff.mpr hkey, actionOf_eq_some_iff.mpr hasks⟩
    rw [hh.respond_of_granted horder hgrant]
    rfl
  | published hasks hpath hkey hgrant =>
    have horder := order_eq_ok_iff (o := ⟨.publish, _, _, _⟩) |>.mpr
      ⟨hpath, authKey_eq_some_iff.mpr hkey, actionOf_eq_some_iff.mpr hasks⟩
    rw [hh.respond_of_granted horder hgrant]
    rfl

/-- **Answers tell what happened.** In a hub whose observers are all on sessions, after whatever was
served there, a request is answered under its own token and with the code that its parts and the
grants call for, and with no other. The code is never that of an error inside, and a request that is
not answered with one of the codes of success leaves the hub as it was: registry, sessions with what
waits for them, observers, waiters and broker. -/
theorem answer_tells_what_happened {h : Hub} (hh : h.SessionBacked) (es : List Event) (g : Grants)
    (now : Instant) (s : SessionId) (r : Request) :
    let before := h.served es
    let done := before.respond g.check now s r
    done.result.token = r.token ∧
      (∀ code, done.result.code.dotted = code ↔ r.Answered g code) ∧
      done.result.code.dotted ≠ "5.00" ∧
      (done.result.code.dotted ∉ ["2.01", "2.02", "2.05"] → done.hub = before) := by
  intro before done
  have hbefore : before.SessionBacked := hh.served es
  have hanswered := hbefore.answered_respond g now s r
  refine ⟨respond_token _ _ _ _ _, fun code => ⟨?_, hbefore.dotted_of_answered⟩, ?_,
    hbefore.respond_hub_eq⟩
  · rintro rfl
    exact hanswered
  · exact hanswered.ne_internal

/-- The first key of the query is empty. The second one, which was granted, is not looked at, and
neither is the observe value, which is missing; the subscription made before stays. -/
theorem empty_key_is_no_key :
    let g := Grants.grant Table.empty "k" "ch" "thing"
    let path := "/channels/ch/messages/a/b"
    let es : List Event := [.openSession 4,
      .request g.check (.ofParts 0 0) 0 ⟨.get, path, "auth=k", "t", some 0, []⟩]
    let before := ({ broker := { depth := 1 } } : Hub).served es
    let done := before.respond g.check (.ofParts 1 0) 0 ⟨.get, path, "?auth=&auth=k", "t", none, []⟩
    before.registry.get? "ch.a.b" "t" = some 0 ∧ done.result.code.dotted = "4.01" ∧
      done.hub = before := by
  intro g path es before done
  have hempty : SessionBacked { broker := { depth := 1 } } :=
    ⟨fun o ho => absurd ho (Nat.not_lt_zero o), rfl⟩
  obtain ⟨-, hcode, -, hsame⟩ := answer_tells_what_happened hempty es g (.ofParts 1 0) 0
    ⟨.get, path, "?auth=&auth=k", "t", none, []⟩
  have hcalled : Request.Answered g ⟨.get, path, "?auth=&auth=k", "t", none, []⟩ "4.01" := by
    have hpath : parsePath path = some ("ch", "a.b") := by decide +kernel
    have hnone : authKey "?auth=&auth=k" = none := by decide +kernel
    refine .unauthorized (.inl rfl) hpath fun hbrings => ?_
    obtain ⟨key, hbrings⟩ := hbrings
    cases hnone.symm.trans (authKey_eq_some_iff.mpr hbrings)
  have hanswer := (hcode "4.01").mpr hcalled
  refine ⟨by decide +kernel, hanswer, hsame ?_⟩
  rw [hanswer]
  decide

end Hub
end Gatehouse.Observe
