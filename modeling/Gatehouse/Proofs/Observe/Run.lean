import Gatehouse.Proofs.Observe.Changes

/-!
Runs of the hub in small steps. A subscription registers its observer first and sets the waiter on
it later, so that other calls come between; sessions close, transports let go of queues, observers
end, and every waiter runs when it likes after that.

A scene keeps a log of what was subscribed and unsubscribed. The registry follows that log: what is
registered is what the log says stands there (`Consistent.registered`), what stands there and has
not ended is registered (`Consistent.live`), and somebody waits for everyone who is registered
(`Consistent.watched`). Every move preserves this (`Consistent.step`).
-/

namespace Gatehouse.Observe

/-! ## The log -/

/-- What a call that was let through did to a place of the registry. -/
inductive Effect where
  | subscribed (endpoint token : String) (o : ObserverId)
  | unsubscribed (endpoint token : String)
  deriving DecidableEq

def Effect.place : Effect → String × String
  | subscribed endpoint token _ => (endpoint, token)
  | unsubscribed endpoint token => (endpoint, token)

/-- The last subscription of the place was this observer's, and it was not unsubscribed since. The
log has the latest effect first. -/
def Standing (log : List Effect) (endpoint token : String) (o : ObserverId) : Prop :=
  ∃ later earlier, log = later ++ .subscribed endpoint token o :: earlier ∧
    ∀ e ∈ later, e.place ≠ (endpoint, token)

section Standing

variable {log : List Effect} {endpoint token : String} {o : ObserverId} {e : Effect}

theorem not_standing_nil : ¬ Standing [] endpoint token o := by
  rintro ⟨later, earlier, h, -⟩
  cases later with
  | nil => cases h
  | cons e later => cases h

theorem standing_cons_self : Standing (.subscribed endpoint token o :: log) endpoint token o :=
  ⟨[], log, rfl, by simp⟩

/-- Only the last effect on a place counts. -/
theorem eq_of_standing_cons (h : Standing (e :: log) endpoint token o)
    (hplace : e.place = (endpoint, token)) : e = .subscribed endpoint token o := by
  obtain ⟨later, earlier, hlog, hlater⟩ := h
  cases later with
  | nil => exact (List.cons.inj hlog).1
  | cons e' later =>
    obtain ⟨rfl, -⟩ := List.cons.inj hlog
    exact absurd hplace (hlater e List.mem_cons_self)

/-- An effect on one place leaves the others as they are. -/
theorem standing_cons_iff (hplace : e.place ≠ (endpoint, token)) :
    Standing (e :: log) endpoint token o ↔ Standing log endpoint token o := by
  constructor
  · rintro ⟨later, earlier, hlog, hlater⟩
    cases later with
    | nil =>
      obtain ⟨rfl, -⟩ := List.cons.inj hlog
      exact absurd rfl hplace
    | cons e' later =>
      obtain ⟨-, hlog⟩ := List.cons.inj hlog
      exact ⟨later, earlier, hlog, fun x hx => hlater x (List.mem_cons_of_mem _ hx)⟩
  · rintro ⟨later, earlier, rfl, hlater⟩
    refine ⟨e :: later, earlier, rfl, fun x hx => ?_⟩
    rcases List.mem_cons.mp hx with rfl | hx
    · exact hplace
    · exact hlater x hx

end Standing

/-! ## Scenes and moves -/

/-- A hub in the middle of things. -/
structure Scene where
  hub : Hub
  /-- Registrations whose waiter is not yet set. -/
  midway : List (String × ObserverId) := []
  log : List Effect := []

inductive Move where
  | openSession (capacity : Nat)
  | addObserver (o : Observer)
  /-- The first half of a subscription: the check, and the registration. -/
  | subscribe (access : AccessCheck) (key channel subtopic : String) (o : ObserverId)
  /-- The second half of the registration at a place of the row. -/
  | watch (i : Nat)
  | unsubscribe (access : AccessCheck) (key channel subtopic token : String)
  | publish (access : AccessCheck) (now : Instant) (key : String) (m : Message)
  /-- A single delivery, as it comes between other moves. -/
  | handle (o : ObserverId) (m : Message)
  | close (s : SessionId)
  | detach (s : SessionId)
  | drain (s : SessionId)
  /-- A session notices that its transport is gone. -/
  | noticeLoss (s : SessionId)
  /-- An observer ends from its own side. -/
  | finish (o : ObserverId)
  /-- A waiter runs. -/
  | wake (i : Nat)

/-- The link leads to something that exists. -/
def Link.ExistsIn (h : Hub) : Link → Prop
  | .session s _ => s < h.sessions.length
  | .device _ _ => True

instance (h : Hub) (l : Link) : Decidable (l.ExistsIn h) := by
  cases l
  · exact inferInstanceAs (Decidable (_ < _))
  · exact inferInstanceAs (Decidable True)

namespace Scene

/-- One move. A move that is not possible changes nothing: an observer is made over a session that
exists, an observer that exists is subscribed, and a waiter runs if its observer has ended. -/
def step (x : Scene) : Move → Scene
  | .openSession capacity => { x with hub := (x.hub.openSession capacity).2 }
  | .addObserver o =>
    if o.link.ExistsIn x.hub then { x with hub := (x.hub.addObserver o).2 } else x
  | .subscribe access key channel subtopic o =>
    match authorize access key channel with
    | .error _ => x
    | .ok _ =>
      if o < x.hub.observers.length then
        let endpoint := Topic.endpoint channel subtopic
        let token := x.hub.tokenOf o
        { hub := (x.hub.put endpoint token o).2
          midway := x.midway ++ [(endpoint, o)]
          log := .subscribed endpoint token o :: x.log }
      else x
  | .watch i =>
    match x.midway[i]? with
    | none => x
    | some (endpoint, o) =>
      { x with hub := x.hub.watch endpoint o, midway := x.midway.eraseIdx i }
  | .unsubscribe access key channel subtopic token =>
    match authorize access key channel with
    | .error _ => x
    | .ok _ =>
      { x with
        hub := (x.hub.unsubscribe access key channel subtopic token).2
        log := .unsubscribed (Topic.endpoint channel subtopic) token :: x.log }
  | .publish access now key m => { x with hub := (x.hub.publish access now key m).hub }
  | .handle o m => { x with hub := (x.hub.handle o m).2 }
  | .close s => { x with hub := x.hub.onSession s Session.close }
  | .detach s => { x with hub := x.hub.onSession s Session.detach }
  | .drain s => { x with hub := x.hub.onSession s fun s => s.drain.2 }
  | .noticeLoss s => { x with hub := x.hub.onSession s Session.noticeLoss }
  | .finish o => { x with hub := x.hub.finish o }
  | .wake i =>
    if (x.hub.waiters[i]?).any fun w => x.hub.ended w.2 then { x with hub := (x.hub.wake i).hub }
    else x

def run (x : Scene) (moves : List Move) : Scene := moves.foldl step x

/-- The scene in which nothing has happened. -/
def start (broker : Broker) : Scene := { hub := { broker := broker } }

/-- Nothing is left to happen by itself: every subscription is complete, every session has noticed
the loss of its transport, and no waiter can run. -/
structure AtRest (x : Scene) : Prop where
  complete : x.midway = []
  noticed : ∀ s ∈ x.hub.sessions, s.attached = false → s.closed = true
  quiet : ∀ w ∈ x.hub.waiters, x.hub.ended w.2 = false

end Scene

/-! ## The registry changed, and nothing else -/

namespace Hub

variable (h : Hub) (endpoint token : String)

theorem quiet_cancelLeft (left : Option ObserverId) : Quiet h (h.cancelLeft left).2 := by
  cases left with
  | none => exact .refl h
  | some o => exact quiet_cancel h o

/-- A registration is a change of the registry, and then a cancellation. -/
theorem quiet_put (o : ObserverId) :
    Quiet { h with registry := (h.registry.put endpoint token o).2 } (h.put endpoint token o).2 :=
  quiet_cancelLeft _ _

/-- So is a removal. -/
theorem quiet_removeIf (test : ObserverId → Bool) :
    Quiet { h with registry := (h.registry.takeIf endpoint token test).2 }
      (h.removeIf endpoint token test).2 :=
  quiet_cancelLeft _ _

theorem later_registry (registry : Registry) : Later h { h with registry := registry } where
  session hs := ⟨_, hs, id⟩
  observer ho := ⟨_, ho, rfl, .refl _⟩

theorem later_waiters (waiters : List (String × ObserverId)) :
    Later h { h with waiters := waiters } where
  session hs := ⟨_, hs, id⟩
  observer ho := ⟨_, ho, rfl, .refl _⟩

theorem later_addObserver (x : Observer) : Later h (h.addObserver x).2 where
  session hs := ⟨_, hs, id⟩
  observer {_ o} ho :=
    ⟨o, (List.getElem?_append_left (List.getElem?_eq_some_iff.mp ho).1).trans ho, rfl, .refl _⟩

theorem later_put (o : ObserverId) : Later h (h.put endpoint token o).2 :=
  (later_registry h _).trans (quiet_put h endpoint token o).toLater

theorem later_removeIf (test : ObserverId → Bool) : Later h (h.removeIf endpoint token test).2 :=
  (later_registry h _).trans (quiet_removeIf h endpoint token test).toLater

/-- What a waiter does to the hub. -/
theorem wake_hub {i : Nat} {o : ObserverId} (hi : h.waiters[i]? = some (endpoint, o)) :
    (h.wake i).hub =
      ({ h with waiters := h.waiters.eraseIdx i }.removeObserver endpoint o).2 := by
  simp only [wake, hi]
  cases { h with waiters := h.waiters.eraseIdx i }.removeObserver endpoint o with
  | mk r h' => cases r <;> rfl

end Hub

namespace Scene

/-! ## The invariant -/

/-- The registry follows the log. -/
structure Consistent (x : Scene) : Prop where
  linked : x.hub.Linked
  /-- Whoever stands in the log exists, and stands under its own token. -/
  known : ∀ {endpoint token o}, Standing x.log endpoint token o →
    o < x.hub.observers.length ∧ x.hub.tokenOf o = token
  registered : ∀ {endpoint token o}, x.hub.registry.get? endpoint token = some o →
    Standing x.log endpoint token o
  live : ∀ {endpoint token o}, Standing x.log endpoint token o → x.hub.ended o = false →
    x.hub.registry.get? endpoint token = some o
  watched : ∀ {endpoint token o}, x.hub.registry.get? endpoint token = some o →
    (endpoint, o) ∈ x.hub.waiters ∨ (endpoint, o) ∈ x.midway

theorem consistent_start (broker : Broker) : (start broker).Consistent where
  linked h := by cases h
  known h := absurd h not_standing_nil
  registered h := by cases h
  live h := absurd h not_standing_nil
  watched h := by cases h

theorem Consistent.later {x : Scene} {h : Hub} (hx : x.Consistent) (hl : Hub.Later x.hub h)
    (hlinked : h.Linked) (hregistry : h.registry = x.hub.registry)
    (hwaiters : h.waiters = x.hub.waiters) : Consistent { x with hub := h } where
  linked := hlinked
  known hs := by
    obtain ⟨ho, htoken⟩ := hx.known hs
    exact ⟨hl.observer_exists ho, (hl.tokenOf_eq ho).trans htoken⟩
  registered hget := hx.registered (hregistry ▸ hget)
  live {_ _ o} hs hlive := by
    cases he : x.hub.ended o with
    | false => exact hregistry ▸ hx.live hs he
    | true => rw [hl.ended hx.linked he] at hlive; cases hlive
  watched hget := hwaiters ▸ hx.watched (hregistry ▸ hget)

theorem Consistent.quiet {x : Scene} {h : Hub} (hx : x.Consistent) (hq : Hub.Quiet x.hub h) :
    Consistent { x with hub := h } :=
  hx.later hq.toLater (hq.linked hx.linked) hq.registry_eq hq.waiters_eq

theorem Consistent.addObserver {x : Scene} (hx : x.Consistent) {o : Observer}
    (ho : o.link.ExistsIn x.hub) : Consistent { x with hub := (x.hub.addObserver o).2 } := by
  refine hx.later (Hub.later_addObserver x.hub o) ?_ rfl rfl
  intro i o' s next ho' hs
  rcases Nat.lt_or_ge i x.hub.observers.length with hi | hi
  · have hold : x.hub.observers[i]? = some o' := by
      rw [← ho']
      exact (List.getElem?_append_left hi).symm
    exact hx.linked hold hs
  · have hnew : [o][i - x.hub.observers.length]? = some o' := by
      rw [← ho']
      exact (List.getElem?_append_right hi).symm
    obtain rfl : o' = o := by simpa using List.mem_of_getElem? hnew
    rw [hs] at ho
    exact ho

/-- The registration of an observer puts it where the log now says that it stands. -/
theorem Consistent.enrolled {x : Scene} (hx : x.Consistent) (endpoint : String) {o : ObserverId}
    (ho : o < x.hub.observers.length) :
    Consistent {
      hub := { x.hub with
        registry := (x.hub.registry.put endpoint (x.hub.tokenOf o) o).2 }
      midway := x.midway ++ [(endpoint, o)]
      log := .subscribed endpoint (x.hub.tokenOf o) o :: x.log } where
  linked := hx.linked
  known {e t o'} hs := by
    by_cases hplace : (Effect.subscribed endpoint (x.hub.tokenOf o) o).place = (e, t)
    · cases eq_of_standing_cons hs hplace
      exact ⟨ho, rfl⟩
    · exact hx.known ((standing_cons_iff hplace).mp hs)
  registered {e t o'} hget := by
    dsimp only at hget
    rw [Registry.get?_put] at hget
    by_cases hplace : (Effect.subscribed endpoint (x.hub.tokenOf o) o).place = (e, t)
    · obtain ⟨rfl, rfl⟩ := Prod.mk.inj hplace
      rw [if_pos ⟨rfl, rfl⟩] at hget
      cases hget
      exact standing_cons_self
    · rw [if_neg fun h => hplace (by rw [h.1, h.2]; rfl)] at hget
      exact (standing_cons_iff hplace).mpr (hx.registered hget)
  live {e t o'} hs hlive := by
    dsimp only
    rw [Registry.get?_put]
    by_cases hplace : (Effect.subscribed endpoint (x.hub.tokenOf o) o).place = (e, t)
    · cases eq_of_standing_cons hs hplace
      rw [if_pos ⟨rfl, rfl⟩]
    · rw [if_neg fun h => hplace (by rw [h.1, h.2]; rfl)]
      exact hx.live ((standing_cons_iff hplace).mp hs) hlive
  watched {e t o'} hget := by
    dsimp only at hget ⊢
    rw [Registry.get?_put] at hget
    by_cases hplace : e = endpoint ∧ t = x.hub.tokenOf o
    · rw [if_pos hplace] at hget
      cases hget
      rw [hplace.1]
      exact .inr (by simp)
    · rw [if_neg hplace] at hget
      rcases hx.watched hget with hw | hw
      · exact .inl hw
      · exact .inr (List.mem_append_left _ hw)

/-- Nobody stands at a place after an unsubscription. -/
theorem Consistent.dropped {x : Scene} (hx : x.Consistent) (endpoint token : String) :
    Consistent { x with
      hub := { x.hub with
        registry := (x.hub.registry.takeIf endpoint token fun _ => true).2 }
      log := .unsubscribed endpoint token :: x.log } where
  linked := hx.linked
  known {e t o} hs := by
    by_cases hplace : (Effect.unsubscribed endpoint token).place = (e, t)
    · cases eq_of_standing_cons hs hplace
    · exact hx.known ((standing_cons_iff hplace).mp hs)
  registered {e t o} hget := by
    dsimp only at hget
    rw [Registry.get?_takeIf] at hget
    by_cases hplace : (Effect.unsubscribed endpoint token).place = (e, t)
    · obtain ⟨rfl, rfl⟩ := Prod.mk.inj hplace
      cases hold : x.hub.registry.get? endpoint token with
      | none => simp [hold] at hget
      | some o' => simp [hold] at hget
    · rw [if_neg fun h => hplace (by rw [h.1, h.2.1]; rfl)] at hget
      exact (standing_cons_iff hplace).mpr (hx.registered hget)
  live {e t o} hs hlive := by
    dsimp only
    rw [Registry.get?_takeIf]
    by_cases hplace : (Effect.unsubscribed endpoint token).place = (e, t)
    · cases eq_of_standing_cons hs hplace
    · rw [if_neg fun h => hplace (by rw [h.1, h.2.1]; rfl)]
      exact hx.live ((standing_cons_iff hplace).mp hs) hlive
  watched {e t o} hget := by
    dsimp only at hget ⊢
    rw [Registry.get?_takeIf] at hget
    split at hget
    · cases hget
    · exact hx.watched hget

/-- A waiter takes out its own observer, which has ended, or nobody. -/
theorem Consistent.woken {x : Scene} (hx : x.Consistent) {i : Nat} {endpoint : String}
    {o : ObserverId} (hi : x.hub.waiters[i]? = some (endpoint, o))
    (hended : x.hub.ended o = true) :
    Consistent { x with
      hub := { x.hub with
        waiters := x.hub.waiters.eraseIdx i
        registry := (x.hub.registry.takeIf endpoint (x.hub.tokenOf o) (· == o)).2 } } where
  linked := hx.linked
  known hs := hx.known hs
  registered {e t o'} hget := by
    dsimp only at hget
    rw [Registry.get?_takeIf] at hget
    split at hget
    · cases hget
    · exact hx.registered hget
  live {e t o'} hs hlive := by
    have hget := hx.live hs hlive
    dsimp only
    rw [Registry.get?_takeIf, if_neg, hget]
    rintro ⟨rfl, rfl, htest⟩
    rw [hget, Option.any_some, beq_iff_eq] at htest
    subst htest
    have hlive' : x.hub.ended o' = false := hlive
    rw [hended] at hlive'
    cases hlive'
  watched {e t o'} hget := by
    dsimp only at hget ⊢
    rw [Registry.get?_takeIf] at hget
    split at hget
    · cases hget
    · next hstays =>
      rcases hx.watched hget with hw | hw
      · refine .inl (List.mem_eraseIdx_iff_getElem?.mpr ?_)
        obtain ⟨j, hj⟩ := List.mem_iff_getElem?.mp hw
        refine ⟨j, fun hij => hstays ?_, hj⟩
        -- the waiter that goes is that of the one observer that leaves the registry
        rw [hij, hi] at hj
        cases hj
        have htoken := (hx.known (hx.registered hget)).2
        rw [← htoken] at hget
        exact ⟨rfl, htoken.symm, by rw [hget]; simp⟩
      · exact .inr hw

theorem detach_closed (s : Session) (hc : s.closed = true) : s.detach.closed = true := hc

theorem noticeLoss_closed (s : Session) (hc : s.closed = true) : s.noticeLoss.closed = true := by
  rw [Session.noticeLoss]
  split
  · exact hc
  · rfl

theorem drain_closed (s : Session) (hc : s.closed = true) : s.drain.2.closed = true := by
  rw [Session.drain]
  split <;> exact hc

/-- **Every move keeps the registry in step with the log.** -/
theorem Consistent.step {x : Scene} (hx : x.Consistent) (m : Move) : (x.step m).Consistent := by
  cases m with
  | openSession capacity => exact hx.quiet (Hub.quiet_openSession _ _)
  | addObserver o =>
    rw [Scene.step]
    split
    · next ho => exact hx.addObserver ho
    · exact hx
  | subscribe access key channel subtopic o =>
    rw [Scene.step]
    split
    · exact hx
    · split
      · next ho =>
        exact (hx.enrolled (Topic.endpoint channel subtopic) ho).quiet (Hub.quiet_put _ _ _ _)
      · exact hx
  | watch i =>
    rw [Scene.step]
    split
    · exact hx
    · next endpoint o hi =>
      refine { hx with watched := fun {e t o'} hget => ?_ }
      dsimp only [Hub.watch]
      rcases hx.watched hget with hw | hw
      · exact .inl (List.mem_append_left _ hw)
      · obtain ⟨j, hj⟩ := List.mem_iff_getElem?.mp hw
        by_cases hij : j = i
        · rw [hij, hi] at hj
          cases hj
          exact .inl (by simp)
        · exact .inr (List.mem_eraseIdx_iff_getElem?.mpr ⟨j, hij, hj⟩)
  | unsubscribe access key channel subtopic token =>
    rw [Scene.step]
    split
    · exact hx
    · next thing haccess =>
      rw [Hub.unsubscribe, haccess]
      exact (hx.dropped (Topic.endpoint channel subtopic) token).quiet (Hub.quiet_removeIf _ _ _ _)
  | publish access now key m => exact hx.quiet (Hub.quiet_publish _ _ _ _ _)
  | handle o m => exact hx.quiet (Hub.quiet_handle _ _ _)
  | close s => exact hx.quiet (Hub.quiet_onSession _ _ Hub.close_closed)
  | detach s => exact hx.quiet (Hub.quiet_onSession _ _ detach_closed)
  | drain s => exact hx.quiet (Hub.quiet_onSession _ _ drain_closed)
  | noticeLoss s => exact hx.quiet (Hub.quiet_onSession _ _ noticeLoss_closed)
  | finish o => exact hx.quiet (Hub.quiet_finish _ _)
  | wake i =>
    rw [Scene.step]
    split
    · next hready =>
      obtain ⟨⟨endpoint, o⟩, hi, hended⟩ := (Option.any_eq_true _ _).mp hready
      rw [Hub.wake_hub _ _ hi]
      exact (hx.woken hi hended).quiet
        (Hub.quiet_removeIf { x.hub with waiters := x.hub.waiters.eraseIdx i } endpoint
          (x.hub.tokenOf o) (· == o))
    · exact hx

/-- No move takes anything back. -/
theorem later_step (x : Scene) (m : Move) : Hub.Later x.hub (x.step m).hub := by
  cases m with
  | openSession capacity => exact (Hub.quiet_openSession _ _).toLater
  | addObserver o =>
    rw [Scene.step]
    split
    · exact Hub.later_addObserver _ _
    · exact .refl _
  | subscribe access key channel subtopic o =>
    rw [Scene.step]
    split
    · exact .refl _
    · split
      · exact Hub.later_put _ _ _ _
      · exact .refl _
  | watch i =>
    rw [Scene.step]
    split
    · exact .refl _
    · exact Hub.later_waiters _ _
  | unsubscribe access key channel subtopic token =>
    rw [Scene.step]
    split
    · exact .refl _
    · next thing haccess =>
      rw [Hub.unsubscribe, haccess]
      exact Hub.later_removeIf _ _ _ _
  | publish access now key m => exact (Hub.quiet_publish _ _ _ _ _).toLater
  | handle o m => exact (Hub.quiet_handle _ _ _).toLater
  | close s => exact (Hub.quiet_onSession _ _ Hub.close_closed).toLater
  | detach s => exact (Hub.quiet_onSession _ _ detach_closed).toLater
  | drain s => exact (Hub.quiet_onSession _ _ drain_closed).toLater
  | noticeLoss s => exact (Hub.quiet_onSession _ _ noticeLoss_closed).toLater
  | finish o => exact (Hub.quiet_finish _ _).toLater
  | wake i =>
    rw [Scene.step]
    split
    · next hready =>
      obtain ⟨⟨endpoint, o⟩, hi, -⟩ := (Option.any_eq_true _ _).mp hready
      rw [Hub.wake_hub _ _ hi]
      exact (Hub.later_waiters x.hub _).trans (Hub.later_removeIf _ _ _ _)
    · exact .refl _

theorem later_run (x : Scene) (moves : List Move) : Hub.Later x.hub (x.run moves).hub := by
  induction moves generalizing x with
  | nil => exact .refl _
  | cons m moves ih => exact (later_step x m).trans (ih (x.step m))

theorem Consistent.run {x : Scene} (hx : x.Consistent) (moves : List Move) :
    (x.run moves).Consistent := by
  induction moves generalizing x with
  | nil => exact hx
  | cons m moves ih => exact ih (hx.step m)

end Scene
end Gatehouse.Observe
