import Gatehouse.Proofs.Observe.Run

/-!
The registry when everything has run that had to. Whoever subscribed last at a place, was not
unsubscribed and has not ended is registered there, and nobody else is. The waiters may have run in
any order and however late: only the log and the ended observers count.
-/

namespace Gatehouse.Observe.Scene

/-- The scene comes about from nothing by some moves. -/
def Reachable (broker : Broker) (x : Scene) : Prop := ∃ moves, (start broker).run moves = x

theorem Reachable.consistent {broker : Broker} {x : Scene} (hx : x.Reachable broker) :
    x.Consistent := by
  obtain ⟨moves, rfl⟩ := hx
  exact (consistent_start broker).run moves

/-- A subscription that nothing comes between is its two moves. -/
theorem step_subscribe_watch (x : Scene) (access : AccessCheck) (key channel subtopic : String)
    {o : ObserverId} (ho : o < x.hub.observers.length) :
    ((x.step (.subscribe access key channel subtopic o)).step (.watch x.midway.length)).hub =
        (x.hub.subscribe access key channel subtopic o).2 ∧
      ((x.step (.subscribe access key channel subtopic o)).step (.watch x.midway.length)).midway =
        x.midway := by
  rw [Hub.subscribe]
  simp only [step]
  cases authorize access key channel with
  | error e => simp
  | ok thing => simp [ho, Hub.enrol, List.eraseIdx_append_of_length_le]

theorem Consistent.registered_iff {x : Scene} (hx : x.Consistent) (hrest : x.AtRest)
    {endpoint token : String} {o : ObserverId} :
    x.hub.registry.get? endpoint token = some o ↔
      Standing x.log endpoint token o ∧ x.hub.tokenOf o = token ∧ x.hub.ended o = false := by
  constructor
  · intro hget
    have hstanding := hx.registered hget
    refine ⟨hstanding, (hx.known hstanding).2, ?_⟩
    rcases hx.watched hget with hw | hw
    · exact hrest.quiet _ hw
    · rw [hrest.complete] at hw
      cases hw
  · rintro ⟨hstanding, -, hlive⟩
    exact hx.live hstanding hlive

/-- **The registry at rest.** Whatever was done in whatever order, an observer is registered under
an endpoint and a token exactly if it was the last to be subscribed there, was not unsubscribed
since, and has not ended. So two runs with the same subscriptions and unsubscriptions, after which
the same observers have ended, leave the same registry; and at no time, at rest or not, is a
relation missing that is still alive. -/
theorem registry_at_rest {broker : Broker} {x : Scene} (hx : x.Reachable broker) :
    (x.AtRest → ∀ endpoint token o, x.hub.registry.get? endpoint token = some o ↔
      Standing x.log endpoint token o ∧ x.hub.tokenOf o = token ∧ x.hub.ended o = false) ∧
    (x.AtRest → ∀ y : Scene, y.Reachable broker → y.AtRest → y.log = x.log →
      (∀ o, y.hub.ended o = x.hub.ended o) → ∀ endpoint token,
        y.hub.registry.get? endpoint token = x.hub.registry.get? endpoint token) ∧
    (∀ endpoint token o, Standing x.log endpoint token o → x.hub.ended o = false →
      x.hub.registry.get? endpoint token = some o) := by
  refine ⟨fun hrest endpoint token o => hx.consistent.registered_iff hrest,
    fun hrest y hy hyrest hlog hended endpoint token => ?_,
    fun endpoint token o hstanding hlive => hx.consistent.live hstanding hlive⟩
  have hiff : ∀ o, y.hub.registry.get? endpoint token = some o ↔
      x.hub.registry.get? endpoint token = some o := by
    intro o
    rw [hy.consistent.registered_iff hyrest, hx.consistent.registered_iff hrest, hlog, hended o]
    constructor
    · rintro ⟨hstanding, -, hlive⟩
      exact ⟨hstanding, (hx.consistent.known hstanding).2, hlive⟩
    · rintro ⟨hstanding, -, hlive⟩
      exact ⟨hstanding, (hy.consistent.known (hlog ▸ hstanding)).2, hlive⟩
  exact Option.ext hiff

/-- An observer is replaced by one on another session, and the waiter of the first runs late. -/
def replacement : List Move := [
  .openSession 4, .openSession 4,
  .addObserver (.onSession "t" 0), .addObserver (.onSession "t" 1),
  .subscribe (fun _ _ => .ok "thing") "key" "ch" "" 0, .watch 0,
  .subscribe (fun _ _ => .ok "thing") "key" "ch" "" 1, .watch 0,
  .wake 0]

/-- The replacement stays. -/
theorem replacement_stays :
    (((start { depth := 1 }).run replacement).hub.registry.get? "ch." "t" = some 1) ∧
      ((start { depth := 1 }).run replacement).hub.ended 0 = true := by
  have hrest : ((start { depth := 1 }).run replacement).AtRest :=
    ⟨by decide, by decide, by decide⟩
  refine ⟨((registry_at_rest ⟨replacement, rfl⟩).1 hrest "ch." "t" 1).mpr ⟨?_, by decide, by decide⟩,
    by decide⟩
  exact standing_cons_self

end Gatehouse.Observe.Scene
