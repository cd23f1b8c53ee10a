import Gatehouse.Observe.Request
import Gatehouse.Proofs.Observe.Delivery
import Gatehouse.Proofs.Observe.Run

/-!
A hub that serves devices. What happens to it are requests over sessions, what the transport does to
sessions, and what runs by itself. Each such event is some moves of a scene (`Hub.run_moves`), so
the registry stays in step with the log of what requests did to it (`Hub.consistent_after`).
-/

namespace Gatehouse.Observe

/-- What happens to a hub that serves devices. -/
inductive Event where
  | openSession (capacity : Nat)
  | request (access : AccessCheck) (now : Instant) (session : SessionId) (r : Request)
  | close (s : SessionId)
  | detach (s : SessionId)
  | drain (s : SessionId)
  /-- A session notices that its transport is gone. -/
  | noticeLoss (s : SessionId)
  /-- A waiter runs. -/
  | wake (i : Nat)

namespace Hub

/-- The hub after an event. A request comes over a session that exists, and a waiter runs if its
observer has ended; else nothing happens. -/
def after (h : Hub) : Event → Hub
  | .openSession capacity => (h.openSession capacity).2
  | .request access now s r =>
    if s < h.sessions.length then (h.respond access now s r).hub else h
  | .close s => h.onSession s Session.close
  | .detach s => h.onSession s Session.detach
  | .drain s => h.onSession s fun s => s.drain.2
  | .noticeLoss s => h.onSession s Session.noticeLoss
  | .wake i => if (h.waiters[i]?).any fun w => h.ended w.2 then (h.wake i).hub else h

def served (h : Hub) (es : List Event) : Hub := es.foldl after h

/-- What an event does to a place of the registry on a device's behalf. -/
def effect? (h : Hub) : Event → Option Effect
  | .request access _ s r =>
    if s < h.sessions.length then
      match r.order with
      | .error _ => none
      | .ok o =>
        match authorize access o.key o.channel with
        | .error _ => none
        | .ok _ =>
          match o.action with
          | .subscribe =>
            some (.subscribed (Topic.endpoint o.channel o.subtopic) r.token h.observers.length)
          | .unsubscribe => some (.unsubscribed (Topic.endpoint o.channel o.subtopic) r.token)
          | .publish => none
    else none
  | _ => none

/-! ## Events as moves -/

/-- The moves that an order comes to. -/
def movesOf (h : Hub) (access : AccessCheck) (now : Instant) (s : SessionId) (r : Request)
    (o : Order) : List Move :=
  match o.action with
  | .subscribe =>
    match authorize access o.key o.channel with
    | .error _ => []
    | .ok _ => [.addObserver (.onSession r.token s),
      .subscribe access o.key o.channel o.subtopic h.observers.length, .watch 0]
  | .unsubscribe => [.unsubscribe access o.key o.channel o.subtopic r.token]
  | .publish => [.publish access now o.key
      { channel := o.channel, subtopic := o.subtopic, payload := r.payload }]

def moves (h : Hub) : Event → List Move
  | .openSession capacity => [.openSession capacity]
  | .request access now s r =>
    if s < h.sessions.length then
      match r.order with
      | .error _ => []
      | .ok o => h.movesOf access now s r o
    else []
  | .close s => [.close s]
  | .detach s => [.detach s]
  | .drain s => [.drain s]
  | .noticeLoss s => [.noticeLoss s]
  | .wake i => [.wake i]

theorem respond_hub (access : AccessCheck) (now : Instant) (h : Hub) (s : SessionId)
    (r : Request) :
    (h.respond access now s r).hub =
      match r.order with
      | .error _ => h
      | .ok o => (h.carryOut access now s r o).hub := by
  rw [respond]
  cases r.order with
  | error code => rfl
  | ok o =>
    dsimp only
    split <;> rfl

theorem tokenOf_addObserver (h : Hub) (o : Observer) :
    (h.addObserver o).2.tokenOf h.observers.length = o.token := by
  simp [addObserver, tokenOf]

/-- An event is its moves: they leave the hub that the event leaves, no subscription midway, and
what the event did in the log. -/
theorem run_moves (h : Hub) (log : List Effect) (e : Event) :
    (Scene.mk h [] log).run (h.moves e) = ⟨h.after e, [], (h.effect? e).toList ++ log⟩ := by
  cases e with
  | request access now s r =>
    rw [moves, after, effect?, respond_hub]
    by_cases hs : s < h.sessions.length
    · simp only [hs, if_true]
      cases hr : r.order with
      | error code => rfl
      | ok o =>
        simp only [movesOf, carryOut]
        cases hact : o.action with
        | subscribe =>
          cases haccess : authorize access o.key o.channel with
          | error e => rfl
          | ok thing =>
            have hlink : (Observer.onSession r.token s).link.ExistsIn h := hs
            have htoken := tokenOf_addObserver h (.onSession r.token s)
            have hid : (h.addObserver (.onSession r.token s)).1 = h.observers.length := rfl
            have hnew : h.observers.length <
                (h.addObserver (.onSession r.token s)).2.observers.length := by
              simp [addObserver]
            simp only [Scene.run, List.foldl_cons, List.foldl_nil, Scene.step, if_pos hlink,
              haccess, if_pos hnew, enrol, hid, htoken]
            rfl
        | unsubscribe =>
          cases haccess : authorize access o.key o.channel with
          | error e => simp [Scene.run, Scene.step, haccess, unsubscribe]
          | ok thing => simp [Scene.run, Scene.step, haccess]
        | publish =>
          cases haccess : authorize access o.key o.channel with
          | error e => rfl
          | ok thing => rfl
    · simp only [hs, if_false]
      rfl
  | wake i =>
    rw [moves, after]
    simp only [Scene.run, List.foldl_cons, List.foldl_nil, Scene.step]
    split <;> rfl
  | _ => rfl

theorem later_after (h : Hub) (e : Event) : Later h (h.after e) := by
  have hrun := Scene.later_run ⟨h, [], []⟩ (h.moves e)
  rwa [run_moves] at hrun

/-- **The registry stays in step with what requests do to it.** -/
theorem consistent_after {h : Hub} {log : List Effect} (hx : Scene.Consistent ⟨h, [], log⟩)
    (e : Event) : Scene.Consistent ⟨h.after e, [], (h.effect? e).toList ++ log⟩ := by
  rw [← run_moves]
  exact hx.run _

/-- What some events do to the registry on behalf of devices, the latest first. -/
def effects (h : Hub) : List Event → List Effect
  | [] => []
  | e :: es => (h.after e).effects es ++ (h.effect? e).toList

theorem consistent_served {h : Hub} {log : List Effect} (hx : Scene.Consistent ⟨h, [], log⟩)
    (es : List Event) : Scene.Consistent ⟨h.served es, [], h.effects es ++ log⟩ := by
  induction es generalizing h log with
  | nil => exact hx
  | cons e es ih =>
    have hserved := ih (consistent_after hx e)
    rw [← List.append_assoc] at hserved
    exact hserved

theorem later_served (h : Hub) (es : List Event) : Later h (h.served es) := by
  induction es generalizing h with
  | nil => exact .refl h
  | cons e es ih => exact (later_after h e).trans (ih (h.after e))

/-- Everything that was done was done by one of the events. -/
theorem exists_event_of_effects {h : Hub} {es : List Event} {later earlier : List Effect}
    {x : Effect} (hsplit : h.effects es = later ++ x :: earlier) :
    ∃ before e since, es = before ++ e :: since ∧ (h.served before).effect? e = some x ∧
      later = ((h.served before).after e).effects since := by
  induction es generalizing h earlier with
  | nil => simp [effects] at hsplit
  | cons e es ih =>
    rw [effects] at hsplit
    -- the effect is the first event's, or there is more of the log behind it
    have hcases : (h.effect? e = some x ∧ later = (h.after e).effects es) ∨
        ∃ rest, (h.after e).effects es = later ++ x :: rest := by
      cases heffect : h.effect? e with
      | none =>
        rw [heffect, Option.toList_none, List.append_nil] at hsplit
        exact .inr ⟨earlier, hsplit⟩
      | some y =>
        rw [heffect, Option.toList_some] at hsplit
        rcases earlier.eq_nil_or_concat with rfl | ⟨rest, z, rfl⟩
        · obtain ⟨hlater, hxy⟩ := List.append_inj' hsplit rfl
          cases hxy
          exact .inl ⟨rfl, hlater.symm⟩
        · have hsplit' : (h.after e).effects es ++ [y] = (later ++ x :: rest) ++ [z] := by
            simpa using hsplit
          exact .inr ⟨rest, (List.append_inj' hsplit' rfl).1⟩
    rcases hcases with ⟨heffect, hlater⟩ | ⟨rest, hrest⟩
    · exact ⟨[], e, es, rfl, heffect, hlater⟩
    · obtain ⟨before, e', since, rfl, heffect, hlater⟩ := ih hrest
      exact ⟨e :: before, e', since, rfl, heffect, hlater⟩

/-! ## Registering a relation -/

theorem ofFailure_ne_content (e : Failure) : ResponseCode.ofFailure e ≠ .content := by
  rw [ResponseCode.ofFailure]
  cases e.kind <;> decide

/-- A subscription that is answered with content was let through. -/
theorem authorized_of_content {access : AccessCheck} {now : Instant} {h : Hub} {s : SessionId}
    {r : Request} {o : Order} (horder : r.order = .ok o) (haction : o.action = .subscribe)
    (hcontent : (h.respond access now s r).result.code = .content) :
    ∃ thing, authorize access o.key o.channel = .ok thing := by
  cases haccess : authorize access o.key o.channel with
  | ok thing => exact ⟨thing, rfl⟩
  | error e =>
    simp only [respond, horder, carryOut, haction, haccess] at hcontent
    exact absurd hcontent (ofFailure_ne_content _)

/-- A subscription that is let through makes an observer on its session. -/
theorem sessionOf?_respond {access : AccessCheck} {now : Instant} {h : Hub} {s : SessionId}
    {r : Request} {o : Order} {thing : String} (horder : r.order = .ok o)
    (haction : o.action = .subscribe) (haccess : authorize access o.key o.channel = .ok thing) :
    (h.respond access now s r).hub.sessionOf? h.observers.length = some s := by
  have hnew : (h.addObserver (.onSession r.token s)).2.sessionOf? h.observers.length = some s := by
    simp [sessionOf?, addObserver, Observer.onSession, Link.session?]
  rw [respond_hub, horder]
  simp only [carryOut, haction, haccess]
  exact ((later_put _ _ _ _).trans (later_waiters _ _)).sessionOf? hnew

end Hub
end Gatehouse.Observe
