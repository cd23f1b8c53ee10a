import Gatehouse.Proofs.Observe.Changes

/-!
One session while messages are delivered and observers are cancelled. A session that is open takes
what its own relations are handed, in turn and as long as there is room (`deliver_open`). It is left
alone by whatever befalls observers that are not on it (`cancel_other`).
-/

namespace Gatehouse.Observe

def Link.session? : Link → Option SessionId
  | .session id _ => some id
  | .device _ _ => none

theorem Link.Later.session?_eq {l l' : Link} (h : l.Later l') : l'.session? = l.session? := by
  cases h <;> rfl

namespace Hub

/-- The session that an observer is on. -/
def sessionOf? (h : Hub) (o : ObserverId) : Option SessionId :=
  h.observers[o]?.bind fun x => x.link.session?

theorem sessionOf?_of_link {h : Hub} {o : ObserverId} {x : Observer} {i : SessionId}
    {next : Sequence} (hx : h.observers[o]? = some x) (hl : x.link = .session i next) :
    h.sessionOf? o = some i := by
  simp [sessionOf?, hx, hl, Link.session?]

/-- Whoever is on a session is linked to it. -/
theorem exists_link {h : Hub} {o : ObserverId} {i : SessionId} (ho : h.sessionOf? o = some i) :
    ∃ x next, h.observers[o]? = some x ∧ x.link = .session i next := by
  obtain ⟨x, hx, hlink⟩ := Option.bind_eq_some_iff.mp ho
  cases hl : x.link with
  | session j next =>
    obtain rfl : j = i := by simpa [hl, Link.session?] using hlink
    exact ⟨x, next, hx, hl⟩
  | device d ended => simp [hl, Link.session?] at hlink

/-- A session that takes notifications. -/
structure OpenAt (h : Hub) (i : SessionId) (s : Session) : Prop where
  get : h.sessions[i]? = some s
  closed : s.closed = false
  attached : s.attached = true

theorem Later.sessionOf? {h h' : Hub} (hl : Later h h') {o : ObserverId} {i : SessionId}
    (ho : h.sessionOf? o = some i) : h'.sessionOf? o = some i := by
  cases hx : h.observers[o]? with
  | none => simp [Hub.sessionOf?, hx] at ho
  | some x =>
    obtain ⟨x', hx', -, hlink⟩ := hl.observer hx
    simp only [Hub.sessionOf?, hx, Option.bind_some] at ho
    simp only [Hub.sessionOf?, hx', Option.bind_some, hlink.session?_eq, ho]

theorem Quiet.sessionOf?_eq {h h' : Hub} (hq : Quiet h h') (o : ObserverId) :
    h'.sessionOf? o = h.sessionOf? o := by
  cases ho : h.observers[o]? with
  | none =>
    have ho' : h'.observers[o]? = none := by
      rw [List.getElem?_eq_none_iff, hq.observers_length]
      exact List.getElem?_eq_none_iff.mp ho
    simp [sessionOf?, ho, ho']
  | some x =>
    obtain ⟨x', hx', -, hlink⟩ := hq.observer ho
    simp [sessionOf?, ho, hx', hlink.session?_eq]

theorem Quiet.tokenOf_eq {h h' : Hub} (hq : Quiet h h') (o : ObserverId) :
    h'.tokenOf o = h.tokenOf o := by
  rcases Nat.lt_or_ge o h.observers.length with ho | ho
  · exact hq.toLater.tokenOf_eq ho
  · have ho' : h'.observers.length ≤ o := hq.observers_length ▸ ho
    simp [tokenOf, List.getElem?_eq_none ho, List.getElem?_eq_none ho']

/-! ## Observers on other sessions -/

theorem handle_other {h : Hub} {o : ObserverId} {i : SessionId} (ho : h.sessionOf? o ≠ some i)
    (m : Message) : (h.handle o m).2.sessions[i]? = h.sessions[i]? := by
  rw [handle]
  split
  · rfl
  · next x hx =>
    split
    · next j next hl =>
      have hij : j ≠ i := fun hij => ho (hij ▸ sessionOf?_of_link hx hl)
      dsimp only
      split
      · rfl
      · exact List.getElem?_set_ne hij
    · dsimp only
      split <;> rfl

theorem onSession_other (h : Hub) {i j : SessionId} (hij : j ≠ i) (f : Session → Session) :
    (h.onSession j f).sessions[i]? = h.sessions[i]? := by
  rw [onSession, List.getElem?_modify]
  simp [hij]

/-- To cancel an observer is nothing to the sessions that it is not on. -/
theorem cancel_other {h : Hub} {o : ObserverId} {i : SessionId} (ho : h.sessionOf? o ≠ some i) :
    (h.cancel o).2.sessions[i]? = h.sessions[i]? := by
  rw [cancel]
  split
  · rfl
  · next x hx =>
    split
    · next j next hl =>
      have hij : j ≠ i := fun hij => ho (hij ▸ sessionOf?_of_link hx hl)
      exact onSession_other _ hij _
    · dsimp only
      split <;> rfl

/-! ## Delivery into a session -/

end Hub

namespace Session

/-- The session after notifications were offered to it: it takes them as long as there is room. -/
def offered (s : Session) (notes : List Notification) : Session :=
  { s with queue := s.queue ++ notes.take (s.room - s.queue.length) }

@[simp] theorem offered_nil (s : Session) : s.offered [] = s := by simp [offered]

theorem offered_of_full {s : Session} (h : s.room ≤ s.queue.length) (notes : List Notification) :
    s.offered notes = s := by
  have hnone : s.room - s.queue.length = 0 := by omega
  rw [offered, hnone, List.take_zero, List.append_nil]

theorem offered_singleton {s : Session} (h : s.queue.length < s.room) (n : Notification) :
    s.offered [n] = { s with queue := s.queue ++ [n] } := by
  have htake : s.room - s.queue.length = (s.room - (s.queue.length + 1)) + 1 := by omega
  rw [offered, htake, List.take_succ_cons, List.take_nil]

theorem offered_cons (s : Session) (n : Notification) (notes : List Notification) :
    s.offered (n :: notes) = (s.offered [n]).offered notes := by
  by_cases hroom : s.queue.length < s.room
  · have htake : s.room - s.queue.length = (s.room - (s.queue.length + 1)) + 1 := by omega
    rw [offered_singleton hroom, offered, offered, htake, List.take_succ_cons]
    simp [room]
  · have hfull : s.room ≤ s.queue.length := by omega
    rw [offered_of_full hfull, offered_of_full hfull, offered_of_full hfull]

/-- What a session does with a notification: nothing after its end; it ends if its transport is
gone; otherwise it takes what there is room for. -/
theorem send_cases (s : Session) (n : Notification) :
    s.closed = true ∧ s.send n = (.error .closed, s) ∨
    s.closed = false ∧ s.attached = false ∧ s.send n = (.error .closed, s.close) ∨
    s.closed = false ∧ s.attached = true ∧ s.room ≤ s.queue.length ∧
      s.send n = (.error .full, s) ∨
    s.closed = false ∧ s.attached = true ∧ s.queue.length < s.room ∧
      s.send n = (.ok (), { s with queue := s.queue ++ [n] }) := by
  cases hclosed : s.closed with
  | true => exact .inl ⟨rfl, by rw [send, if_pos hclosed]⟩
  | false =>
    cases hattached : s.attached with
    | false => exact .inr (.inl ⟨rfl, rfl, by simp [send, hclosed, hattached]⟩)
    | true =>
      rcases Nat.lt_or_ge s.queue.length s.room with hroom | hroom
      · have hnot : ¬ s.room ≤ s.queue.length := Nat.not_le.mpr hroom
        exact .inr (.inr (.inr ⟨rfl, rfl, hroom, by simp [send, hclosed, hattached, hnot]⟩))
      · exact .inr (.inr (.inl ⟨rfl, rfl, hroom, by simp [send, hclosed, hattached, hroom]⟩))

/-- What an open session makes of a notification. -/
theorem send_open {s : Session} (hclosed : s.closed = false) (hattached : s.attached = true)
    (n : Notification) : (s.send n).2 = s.offered [n] := by
  obtain ⟨hended, -⟩ | ⟨-, hgone, -⟩ | ⟨-, -, hfull, hsend⟩ | ⟨-, -, hroom, hsend⟩ := s.send_cases n
  · rw [hclosed] at hended; cases hended
  · rw [hattached] at hgone; cases hgone
  · rw [hsend, offered_of_full hfull]
  · rw [hsend, offered_singleton hroom]

end Session

namespace Hub

/-- A message handed to an observer on a session is sent into it, under the next number. -/
theorem handle_sends {h : Hub} {o : ObserverId} {x : Observer} {i : SessionId} {next : Sequence}
    {s : Session} (hx : h.observers[o]? = some x) (hl : x.link = .session i next)
    (hs : h.sessions[i]? = some s) (m : Message) :
    (h.handle o m).1 = (s.send (notificationOf x.token next m)).1 ∧
      (h.handle o m).2.sessions[i]? = some (s.send (notificationOf x.token next m)).2 := by
  constructor
  · simp only [handle, hx, hl, hs]
  · simp only [handle, hx, hl, hs]
    exact List.getElem?_set_self (List.getElem?_eq_some_iff.mp hs).1

/-- A message handed to an observer is a notification sent into its session. -/
theorem handle_on {h : Hub} {o : ObserverId} {i : SessionId} {s : Session}
    (ho : h.sessionOf? o = some i) (hs : h.sessions[i]? = some s) (m : Message) :
    ∃ n : Notification, n.token = h.tokenOf o ∧ n.payload = m.payload ∧
      (h.handle o m).1 = (s.send n).1 ∧ (h.handle o m).2.sessions[i]? = some (s.send n).2 := by
  obtain ⟨x, next, hx, hl⟩ := exists_link ho
  exact ⟨notificationOf x.token next m, by simp [tokenOf, hx, notificationOf], rfl,
    handle_sends hx hl hs m⟩

theorem handle_own {h : Hub} {o : ObserverId} {i : SessionId} {s : Session}
    (ho : h.sessionOf? o = some i) (hs : h.OpenAt i s) (m : Message) :
    ∃ n : Notification, n.token = h.tokenOf o ∧ n.payload = m.payload ∧
      (h.handle o m).2.OpenAt i (s.offered [n]) := by
  obtain ⟨n, htoken, hpayload, -, hget⟩ := handle_on ho hs.get m
  rw [Session.send_open hs.closed hs.attached] at hget
  exact ⟨n, htoken, hpayload, hget, hs.closed, hs.attached⟩

/-- **Delivery into an open session.** Each of its relations among the observers is handed one
notification, in turn; the session takes as many as there is room for. -/
theorem deliver_open (endpoint : String) (m : Message) {i : SessionId} (os : List ObserverId)
    {h : Hub} {s : Session} (hs : h.OpenAt i s) :
    ∃ notes : List Notification,
      notes.map Notification.token =
        (os.filter fun o => h.sessionOf? o = some i).map h.tokenOf ∧
      (∀ n ∈ notes, n.payload = m.payload) ∧
      (deliver endpoint m os h).hub.OpenAt i (s.offered notes) := by
  induction os generalizing h s with
  | nil => exact ⟨[], rfl, by simp, by simpa [deliver] using hs⟩
  | cons o os ih =>
    have hq := quiet_handle h o m
    rw [deliver_cons_hub]
    by_cases ho : h.sessionOf? o = some i
    · obtain ⟨n, htoken, hpayload, hs'⟩ := handle_own ho hs m
      obtain ⟨notes, htokens, hpayloads, hfinal⟩ := ih hs'
      refine ⟨n :: notes, ?_, ?_, ?_⟩
      · simp only [hq.sessionOf?_eq, funext hq.tokenOf_eq] at htokens
        simp [ho, htoken, htokens]
      · intro n' hn'
        rcases List.mem_cons.mp hn' with rfl | hn'
        · exact hpayload
        · exact hpayloads n' hn'
      · rw [Session.offered_cons]
        exact hfinal
    · have hs' : (h.handle o m).2.OpenAt i s :=
        ⟨(handle_other ho m).trans hs.get, hs.closed, hs.attached⟩
      obtain ⟨notes, htokens, hpayloads, hfinal⟩ := ih hs'
      refine ⟨notes, ?_, hpayloads, hfinal⟩
      simp only [hq.sessionOf?_eq, funext hq.tokenOf_eq] at htokens
      simp [ho, htokens]

end Hub
end Gatehouse.Observe
