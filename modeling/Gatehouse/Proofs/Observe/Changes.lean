import Gatehouse.Observe.Service
import Gatehouse.Proofs.Observe.Registry

/-!
What a hub never takes back. Sessions and observers stay where they are, an observer keeps its token
and its kind of link, and what has ended stays ended (`Hub.Later`). Most operations do nothing
beyond that: registry and waiters are the same after them (`Hub.Quiet`). Delivering, cancelling and
everything that the transport does are of this sort.
-/

namespace Gatehouse.Observe

/-- The same link at a later time. -/
inductive Link.Later : Link → Link → Prop
  | session (id : SessionId) (next next' : Sequence) : Later (.session id next) (.session id next')
  | device (d : Device) {ended ended' : Bool} (h : ended = true → ended' = true) :
    Later (.device d ended) (.device d ended')

theorem Link.Later.refl (l : Link) : l.Later l := by
  cases l with
  | session id next => exact .session id next next
  | device d ended => exact .device d id

theorem Link.Later.trans {a b c : Link} (hab : a.Later b) (hbc : b.Later c) : a.Later c := by
  cases hab with
  | session id next next' =>
    cases hbc with
    | session _ _ next'' => exact .session id next next''
  | device d h =>
    cases hbc with
    | device _ h' => exact .device d fun he => h' (h he)

namespace Hub

/-- The hub at a later time. -/
structure Later (h h' : Hub) : Prop where
  session : ∀ {i : SessionId} {s : Session}, h.sessions[i]? = some s →
    ∃ s', h'.sessions[i]? = some s' ∧ (s.closed = true → s'.closed = true)
  observer : ∀ {i : ObserverId} {o : Observer}, h.observers[i]? = some o →
    ∃ o', h'.observers[i]? = some o' ∧ o'.token = o.token ∧ o.link.Later o'.link

/-- The hub at a later time, with the same observers, of whom the same are registered and waited
for. -/
structure Quiet (h h' : Hub) : Prop extends Later h h' where
  observers_length : h'.observers.length = h.observers.length
  registry_eq : h'.registry = h.registry
  waiters_eq : h'.waiters = h.waiters

/-- Every observer on a session is on one that exists. -/
def Linked (h : Hub) : Prop :=
  ∀ {i : ObserverId} {o : Observer} {s : SessionId} {next : Sequence},
    h.observers[i]? = some o → o.link = .session s next → s < h.sessions.length

theorem Later.refl (h : Hub) : Later h h where
  session hs := ⟨_, hs, id⟩
  observer ho := ⟨_, ho, rfl, .refl _⟩

theorem Later.trans {h h' h'' : Hub} (hl : Later h h') (hl' : Later h' h'') : Later h h'' where
  session hs := by
    obtain ⟨s', hs', hclosed⟩ := hl.session hs
    obtain ⟨s'', hs'', hclosed'⟩ := hl'.session hs'
    exact ⟨s'', hs'', fun hc => hclosed' (hclosed hc)⟩
  observer ho := by
    obtain ⟨o', ho', htoken, hlink⟩ := hl.observer ho
    obtain ⟨o'', ho'', htoken', hlink'⟩ := hl'.observer ho'
    exact ⟨o'', ho'', htoken'.trans htoken, hlink.trans hlink'⟩

theorem Quiet.refl (h : Hub) : Quiet h h := ⟨.refl h, rfl, rfl, rfl⟩

theorem Quiet.trans {h h' h'' : Hub} (hq : Quiet h h') (hq' : Quiet h' h'') : Quiet h h'' :=
  ⟨hq.toLater.trans hq'.toLater, hq'.observers_length.trans hq.observers_length,
    hq'.registry_eq.trans hq.registry_eq, hq'.waiters_eq.trans hq.waiters_eq⟩

/-! ## What stays -/

theorem Later.sessions_length {h h' : Hub} (hl : Later h h') :
    h.sessions.length ≤ h'.sessions.length := by
  by_cases hempty : h.sessions.length = 0
  · omega
  · have hi : h.sessions.length - 1 < h.sessions.length := by omega
    obtain ⟨s', hs', -⟩ := hl.session (List.getElem?_eq_getElem hi)
    obtain ⟨hi', -⟩ := List.getElem?_eq_some_iff.mp hs'
    omega

theorem Later.observer_exists {h h' : Hub} (hl : Later h h') {i : ObserverId}
    (hi : i < h.observers.length) : i < h'.observers.length := by
  obtain ⟨o', ho', -⟩ := hl.observer (List.getElem?_eq_getElem hi)
  exact (List.getElem?_eq_some_iff.mp ho').1

theorem Later.tokenOf_eq {h h' : Hub} (hl : Later h h') {i : ObserverId}
    (hi : i < h.observers.length) : h'.tokenOf i = h.tokenOf i := by
  have ho := List.getElem?_eq_getElem hi
  obtain ⟨o', ho', htoken, -⟩ := hl.observer ho
  simp [tokenOf, ho, ho', htoken]

/-- Whether an observer has ended, by its link. -/
def linkEnded (h : Hub) : Link → Bool
  | .session s _ => h.sessionClosed s
  | .device _ ended => ended

theorem ended_eq {h : Hub} {i : ObserverId} {o : Observer} (ho : h.observers[i]? = some o) :
    h.ended i = h.linkEnded o.link := by
  rw [Hub.ended, ho]
  cases hl : o.link with
  | session s next => simp [hl, linkEnded]
  | device d ended => simp [hl, linkEnded]

theorem Later.linkEnded {h h' : Hub} (hl : Later h h') {l l' : Link} (hlater : l.Later l')
    (hlinked : ∀ s next, l = .session s next → s < h.sessions.length)
    (hended : h.linkEnded l = true) : h'.linkEnded l' = true := by
  cases hlater with
  | session id next next' =>
    have hs := List.getElem?_eq_getElem (hlinked id next rfl)
    obtain ⟨s', hs', hclosed⟩ := hl.session hs
    simp only [Hub.linkEnded, sessionClosed, hs, hs'] at hended ⊢
    exact hclosed hended
  | device d h => exact h hended

/-- What has ended stays ended. -/
theorem Later.ended {h h' : Hub} (hl : Later h h') (hlinked : h.Linked) {i : ObserverId}
    (hi : h.ended i = true) : h'.ended i = true := by
  cases ho : h.observers[i]? with
  | none => simp [Hub.ended, ho] at hi
  | some o =>
    obtain ⟨o', ho', -, hlink⟩ := hl.observer ho
    rw [ended_eq ho] at hi
    rw [ended_eq ho']
    exact hl.linkEnded hlink (fun s next hs => hlinked ho hs) hi

theorem Quiet.linked {h h' : Hub} (hq : Quiet h h') (hlinked : h.Linked) : h'.Linked := by
  intro i o' s next ho' hs
  have hi : i < h.observers.length := by
    rw [← hq.observers_length]
    exact (List.getElem?_eq_some_iff.mp ho').1
  have ho := List.getElem?_eq_getElem hi
  obtain ⟨o'', ho'', -, hlink⟩ := hq.observer ho
  obtain rfl : o' = o'' := Option.some.inj (ho'.symm.trans ho'')
  rw [hs] at hlink
  generalize hl : (h.observers[i]).link = l at hlink
  cases hlink with
  | session _ next' _ => exact Nat.lt_of_lt_of_le (hlinked ho hl) hq.sessions_length

/-! ## What observers count -/

/-- What an observer has counted, zero where there is none. -/
def count (field : Observer → Nat) (h : Hub) (i : ObserverId) : Nat :=
  (h.observers[i]?.map field).getD 0

section Count

variable {field : Observer → Nat} {h : Hub} {i j : ObserverId} {x y : Observer}

theorem count_set_of_ne (hj : j ≠ i) :
    count field { h with observers := h.observers.set j y } i = count field h i := by
  unfold count
  rw [List.getElem?_set_ne hj]

theorem count_set (hx : h.observers[j]? = some x) {n : Nat} (hy : field y = field x + n) :
    count field { h with observers := h.observers.set j y } i =
      count field h i + if j = i then n else 0 := by
  by_cases hj : j = i
  · subst hj
    simp [count, List.getElem?_set_self (List.getElem?_eq_some_iff.mp hx).1, hx, hy]
  · rw [count_set_of_ne hj, if_neg hj, Nat.add_zero]

theorem count_set_same (hx : h.observers[j]? = some x) (hy : field y = field x) :
    count field { h with observers := h.observers.set j y } i = count field h i := by
  rw [count_set hx (n := 0) hy, ite_self, Nat.add_zero]

end Count

/-- What is changed by handing a message to an observer: the observer, and perhaps its session. -/
theorem handle_cases (h : Hub) (i : ObserverId) (m : Message) :
    h.observers[i]? = none ∧ (h.handle i m).2 = h ∨
      ∃ x link sessions, h.observers[i]? = some x ∧ (h.handle i m).2 = { h with
        sessions := sessions
        observers := h.observers.set i { x with link := link, handled := x.handled + 1 } } := by
  unfold handle
  split
  · next hnone => exact .inl ⟨hnone, rfl⟩
  · next x hx =>
    refine .inr ⟨x, ?_⟩
    split
    · next s next _ =>
      dsimp only
      split
      · exact ⟨.session s (next + 1), h.sessions, hx, rfl⟩
      · exact ⟨.session s (next + 1), _, hx, rfl⟩
    · dsimp only
      split
      · exact ⟨x.link, h.sessions, hx, rfl⟩
      · exact ⟨x.link, h.sessions, hx, rfl⟩

/-! ## What changes quietly -/

theorem quiet_openSession (h : Hub) (capacity : Nat) : Quiet h (h.openSession capacity).2 where
  session {_ s} hs := by
    refine ⟨s, ?_, id⟩
    rw [openSession, List.getElem?_append_left (List.getElem?_eq_some_iff.mp hs).1, hs]
  observer ho := ⟨_, ho, rfl, .refl _⟩
  observers_length := rfl
  registry_eq := rfl
  waiters_eq := rfl

/-- A change of one session that does not open it again. -/
theorem quiet_onSession (h : Hub) (i : SessionId) {f : Session → Session}
    (hf : ∀ s : Session, s.closed = true → (f s).closed = true) : Quiet h (h.onSession i f) where
  session {j s} hs := by
    refine ⟨if i = j then f s else s, ?_, ?_⟩
    · rw [onSession, List.getElem?_modify, hs]
      split <;> rfl
    · intro hc
      split
      · exact hf s hc
      · exact hc
  observer ho := ⟨_, ho, rfl, .refl _⟩
  observers_length := rfl
  registry_eq := rfl
  waiters_eq := rfl

theorem quiet_setSession {h : Hub} {i : SessionId} {s s' : Session} (hs : h.sessions[i]? = some s)
    (hc : s.closed = true → s'.closed = true) :
    Quiet h { h with sessions := h.sessions.set i s' } where
  session {j x} hx := by
    by_cases hij : i = j
    · subst hij
      obtain rfl : s = x := Option.some.inj (hs.symm.trans hx)
      refine ⟨s', ?_, hc⟩
      rw [List.getElem?_set_self (List.getElem?_eq_some_iff.mp hs).1]
    · exact ⟨x, by rw [List.getElem?_set_ne hij, hx], id⟩
  observer ho := ⟨_, ho, rfl, .refl _⟩
  observers_length := rfl
  registry_eq := rfl
  waiters_eq := rfl

theorem quiet_setObserver {h : Hub} {i : ObserverId} {o o' : Observer}
    (ho : h.observers[i]? = some o) (htoken : o'.token = o.token) (hlink : o.link.Later o'.link) :
    Quiet h { h with observers := h.observers.set i o' } where
  session hs := ⟨_, hs, id⟩
  observer {j x} hx := by
    by_cases hij : i = j
    · subst hij
      obtain rfl : o = x := Option.some.inj (ho.symm.trans hx)
      refine ⟨o', ?_, htoken, hlink⟩
      rw [List.getElem?_set_self (List.getElem?_eq_some_iff.mp ho).1]
    · exact ⟨x, by rw [List.getElem?_set_ne hij, hx], rfl, .refl _⟩
  observers_length := List.length_set
  registry_eq := rfl
  waiters_eq := rfl

theorem close_closed (s : Session) (_ : s.closed = true) : s.close.closed = true := rfl

theorem send_closed (s : Session) (n : Notification) (hc : s.closed = true) :
    (s.send n).2.closed = true := by
  rw [Session.send, if_pos hc]
  exact hc

theorem quiet_handle (h : Hub) (i : ObserverId) (m : Message) : Quiet h (h.handle i m).2 := by
  rw [handle]
  split
  · exact .refl h
  · next o ho =>
    split
    · next s next hl =>
      have hfirst : Quiet h { h with observers := h.observers.set i { o with
          link := .session s (next + 1), handled := o.handled + 1 } } :=
        quiet_setObserver ho rfl (hl ▸ .session s next (next + 1))
      dsimp only
      split
      · exact hfirst
      · next x hx => exact hfirst.trans (quiet_setSession hx (send_closed x _))
    · next d ended hl =>
      have hfirst : Quiet h { h with observers := h.observers.set i { o with
          handled := o.handled + 1 } } := quiet_setObserver ho rfl (.refl _)
      dsimp only
      split
      · exact hfirst
      · exact hfirst

theorem quiet_cancel (h : Hub) (i : ObserverId) : Quiet h (h.cancel i).2 := by
  rw [cancel]
  split
  · exact .refl h
  · next o ho =>
    split
    · next s next hl =>
      have hfirst : Quiet h { h with observers := h.observers.set i { o with
          cancelled := o.cancelled + 1 } } := quiet_setObserver ho rfl (.refl _)
      exact hfirst.trans (quiet_onSession _ s close_closed)
    · next d ended hl =>
      have hfirst : Quiet h { h with observers := h.observers.set i { o with
          cancelled := o.cancelled + 1, link := .device d (ended || d.cancelEnds o.cancelled) } } :=
        quiet_setObserver ho rfl (hl ▸ .device d fun he => by simp [he])
      dsimp only
      split
      · exact hfirst
      · exact hfirst

theorem quiet_finish (h : Hub) (i : ObserverId) : Quiet h (h.finish i) := by
  rw [finish]
  split
  · exact .refl h
  · next o ho =>
    split
    · next s next hl => exact quiet_onSession h s close_closed
    · next d ended hl => exact quiet_setObserver ho rfl (hl ▸ .device d fun _ => rfl)

theorem deliver_cons_hub (endpoint : String) (m : Message) (o : ObserverId)
    (os : List ObserverId) (h : Hub) :
    (deliver endpoint m (o :: os) h).hub = (deliver endpoint m os (h.handle o m).2).hub := by
  simp only [deliver]
  cases h.handle o m with
  | mk r h' => cases r <;> rfl

theorem quiet_deliver (endpoint : String) (m : Message) (os : List ObserverId) (h : Hub) :
    Quiet h (deliver endpoint m os h).hub := by
  induction os generalizing h with
  | nil => exact .refl h
  | cons o os ih =>
    rw [deliver_cons_hub]
    exact (quiet_handle h o m).trans (ih _)

theorem quiet_broker (h : Hub) (broker : Broker) : Quiet h { h with broker := broker } where
  session hs := ⟨_, hs, id⟩
  observer ho := ⟨_, ho, rfl, .refl _⟩
  observers_length := rfl
  registry_eq := rfl
  waiters_eq := rfl

theorem quiet_publish (access : AccessCheck) (now : Instant) (h : Hub) (key : String)
    (m : Message) : Quiet h (h.publish access now key m).hub := by
  rw [publish]
  split
  · exact .refl h
  · next thing _ =>
    have hdeliver := (quiet_deliver (stamp now thing m).endpoint (stamp now thing m)
      (h.registry.observers (stamp now thing m).endpoint) h).trans (quiet_broker _
        ((deliver (stamp now thing m).endpoint (stamp now thing m)
          (h.registry.observers (stamp now thing m).endpoint) h).hub.broker.publish
            ⟨(stamp now thing m).subject, stamp now thing m⟩).2)
    dsimp only
    split
    · exact hdeliver
    · exact hdeliver

end Hub
end Gatehouse.Observe
