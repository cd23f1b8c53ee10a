import Gatehouse.Proofs.Observe.Delivery
import Mathlib.Logic.Function.Iterate

/-!
The queue of a session while its observers are handed messages, its transport takes notifications
out, and it ends, in any order. Nothing gets lost: what waits, followed by what goes in, is what
comes out, followed by what waits then (`Session.Flow`). Every act keeps to that (`flow_act`), and
so does every run of them (`flow_actAll`).
-/

namespace Gatehouse.Observe

/-- What a notification tells, and to whom. -/
def Notification.told (n : Notification) : String × List UInt8 := (n.token, n.payload)

namespace Session

/-! ## One session -/

/-- What a session answers to a notification. -/
structure Answers (s : Session) (r : Except SessionFault Unit) : Prop where
  ok : r = .ok () ↔ s.closed = false ∧ s.attached = true ∧ s.queue.length < s.room
  full : r = .error .full ↔ s.closed = false ∧ s.attached = true ∧ s.queue.length = s.room
  closed : r = .error .closed ↔ s.closed = true ∨ s.attached = false

theorem answers_send {s : Session} (hfits : s.queue.length ≤ s.room) (n : Notification) :
    s.Answers (s.send n).1 := by
  obtain ⟨hclosed, hsend⟩ | ⟨hclosed, hattached, hsend⟩ | ⟨hclosed, hattached, hfull, hsend⟩ |
    ⟨hclosed, hattached, hroom, hsend⟩ := s.send_cases n
  · constructor <;> simp [hsend, hclosed]
  · constructor <;> simp [hsend, hclosed, hattached]
  · have heq : s.queue.length = s.room := Nat.le_antisymm hfits hfull
    constructor <;> simp [hsend, hclosed, hattached, heq]
  · have hne : s.queue.length ≠ s.room := Nat.ne_of_lt hroom
    constructor <;> simp [hsend, hclosed, hattached, hroom, hne]

/-- What becomes of a session while notifications that tell `put` go into its queue, and `out`
comes out. -/
structure Flow (s s' : Session) (put : List (String × List UInt8)) (out : List Notification) :
    Prop where
  room : s'.room = s.room
  fits : s.queue.length ≤ s.room → s'.queue.length ≤ s'.room
  /-- The end is for good. -/
  closed : s.closed = true → s'.closed = true ∧ put = [] ∧ s'.queue <:+ s.queue
  /-- As long as the transport is there, everything comes out in the order in which it went in. -/
  kept : s'.attached = true → s.attached = true ∧
    ∃ notes : List Notification, notes.map Notification.told = put ∧
      s.queue ++ notes = out ++ s'.queue

theorem Flow.refl (s : Session) : s.Flow s [] [] where
  room := rfl
  fits := id
  closed hclosed := ⟨hclosed, rfl, List.suffix_refl s.queue⟩
  kept hattached := ⟨hattached, [], rfl, by simp⟩

theorem Flow.trans {s s' s'' : Session} {put put' : List (String × List UInt8)}
    {out out' : List Notification} (hf : s.Flow s' put out) (hf' : s'.Flow s'' put' out') :
    s.Flow s'' (put ++ put') (out ++ out') where
  room := hf'.room.trans hf.room
  fits hfits := hf'.fits (hf.fits hfits)
  closed hclosed := by
    obtain ⟨hclosed', hput, hsuffix⟩ := hf.closed hclosed
    obtain ⟨hclosed'', hput', hsuffix'⟩ := hf'.closed hclosed'
    exact ⟨hclosed'', by rw [hput, hput', List.append_nil], hsuffix'.trans hsuffix⟩
  kept hattached'' := by
    obtain ⟨hattached', notes', htold', hqueue'⟩ := hf'.kept hattached''
    obtain ⟨hattached, notes, htold, hqueue⟩ := hf.kept hattached'
    refine ⟨hattached, notes ++ notes', by rw [List.map_append, htold, htold'], ?_⟩
    calc s.queue ++ (notes ++ notes')
        = (s.queue ++ notes) ++ notes' := (List.append_assoc ..).symm
      _ = (out ++ s'.queue) ++ notes' := by rw [hqueue]
      _ = out ++ (out' ++ s''.queue) := by rw [List.append_assoc, hqueue']
      _ = (out ++ out') ++ s''.queue := (List.append_assoc ..).symm

/-- Nothing goes in, and what comes out is the front of what waits. -/
theorem Flow.of_suffix {s s' : Session} {out : List Notification} (hroom : s'.room = s.room)
    (hclosed : s.closed = true → s'.closed = true) (hsuffix : s'.queue <:+ s.queue)
    (hkept : s'.attached = true → s.attached = true ∧ s.queue = out ++ s'.queue) :
    s.Flow s' [] out where
  room := hroom
  fits hfits := hroom ▸ Nat.le_trans hsuffix.length_le hfits
  closed h := ⟨hclosed h, rfl, hsuffix⟩
  kept hattached := by
    obtain ⟨hbefore, hqueue⟩ := hkept hattached
    exact ⟨hbefore, [], rfl, by rw [List.append_nil, hqueue]⟩

theorem flow_close (s : Session) : s.Flow s.close [] [] :=
  .of_suffix rfl (fun _ => rfl) (List.suffix_refl s.queue) fun h => ⟨h, rfl⟩

theorem flow_send (s : Session) (n : Notification) :
    s.Flow (s.send n).2 (if (s.send n).1.isOk then [n.told] else []) [] := by
  obtain ⟨-, hsend⟩ | ⟨-, -, hsend⟩ | ⟨-, -, -, hsend⟩ | ⟨hclosed, -, hroom, hsend⟩ :=
    s.send_cases n
  · rw [hsend]
    exact .refl s
  · rw [hsend]
    exact flow_close s
  · rw [hsend]
    exact .refl s
  · rw [hsend]
    exact {
      room := rfl
      fits := fun _ => by rw [List.length_append]; exact hroom
      closed := fun h => by rw [hclosed] at h; cases h
      kept := fun h => ⟨h, [n], rfl, by simp⟩ }

/-- A session that hears nothing from its transport any more ends with the next notification. -/
theorem closed_of_send {s : Session} (hattached : s.attached = false) (n : Notification) :
    (s.send n).2.closed = true := by
  obtain ⟨hclosed, hsend⟩ | ⟨-, -, hsend⟩ | ⟨-, hthere, -⟩ | ⟨-, hthere, -⟩ := s.send_cases n
  · rw [hsend]
    exact hclosed
  · rw [hsend]
    rfl
  · rw [hattached] at hthere; cases hthere
  · rw [hattached] at hthere; cases hthere

/-- What waits is lost with the transport. -/
theorem flow_detach (s : Session) : s.Flow s.detach [] [] :=
  .of_suffix rfl id (List.nil_suffix) fun h => by cases h

theorem flow_noticeLoss (s : Session) : s.Flow s.noticeLoss [] [] := by
  rw [noticeLoss]
  split
  · exact .refl s
  · exact flow_close s

theorem receive_cons {s : Session} {n : Notification} {queue : List Notification}
    (hattached : s.attached = true) (hqueue : s.queue = n :: queue) :
    s.receive = (some n, { s with queue := queue }) := by
  rw [receive, hattached, hqueue]

theorem receive_nil {s : Session} (hqueue : s.queue = []) : s.receive = (none, s) := by
  unfold receive
  split
  · next hqueue' => rw [hqueue] at hqueue'; cases hqueue'
  · rfl

theorem flow_receive (s : Session) : s.Flow s.receive.2 [] s.receive.1.toList := by
  unfold receive
  split
  · next n queue hattached hqueue =>
    refine .of_suffix rfl id ⟨[n], hqueue.symm⟩ fun _ => ⟨hattached, hqueue⟩
  · exact .refl s

theorem flow_drain (s : Session) : s.Flow s.drain.2 [] (s.drain.1.getD []) := by
  unfold drain
  split
  · next hattached =>
    exact .of_suffix rfl id List.nil_suffix fun _ => ⟨hattached, (List.append_nil s.queue).symm⟩
  · exact .refl s

end Session

namespace Hub

/-! ## Acts -/

/-- What users, transports and the observers of sessions do. -/
inductive Act where
  | openSession (capacity : Nat)
  | addObserver (o : Observer)
  | handle (o : ObserverId) (m : Message)
  | cancel (o : ObserverId)
  | receive (j : SessionId)
  | drain (j : SessionId)
  | close (j : SessionId)
  | detach (j : SessionId)
  | noticeLoss (j : SessionId)

def act (h : Hub) : Act → Hub
  | .openSession capacity => (h.openSession capacity).2
  | .addObserver o => (h.addObserver o).2
  | .handle o m => (h.handle o m).2
  | .cancel o => (h.cancel o).2
  | .receive j => h.onSession j fun s => s.receive.2
  | .drain j => h.onSession j fun s => s.drain.2
  | .close j => h.onSession j Session.close
  | .detach j => h.onSession j Session.detach
  | .noticeLoss j => h.onSession j Session.noticeLoss

def actAll (h : Hub) (acts : List Act) : Hub := acts.foldl act h

variable (i : SessionId)

/-- Token and payload of the message that an observer on the session was handed, if it answered that
it took it. -/
def takesIn (h : Hub) : Act → List (String × List UInt8)
  | .handle o m =>
    if h.sessionOf? o = some i ∧ (h.handle o m).1.isOk then [(h.tokenOf o, m.payload)] else []
  | _ => []

/-- What the transport of the session takes out. -/
def givesOut (h : Hub) : Act → List Notification
  | .receive j => if j = i then (h.sessions[j]?.bind fun s => s.receive.1).toList else []
  | .drain j => if j = i then (h.sessions[j]?.bind fun s => s.drain.1).getD [] else []
  | _ => []

/-- What went into the queue of the session in a run, in order. -/
def takenIn (h : Hub) : List Act → List (String × List UInt8)
  | [] => []
  | a :: acts => h.takesIn i a ++ (h.act a).takenIn acts

/-- What came out of the queue of the session in a run, in order. -/
def givenOut (h : Hub) : List Act → List Notification
  | [] => []
  | a :: acts => h.givesOut i a ++ (h.act a).givenOut acts

variable {i}

theorem onSession_own {h : Hub} {s : Session} (hs : h.sessions[i]? = some s)
    (f : Session → Session) : (h.onSession i f).sessions[i]? = some (f s) := by
  rw [onSession, List.getElem?_modify, hs]
  simp

theorem openSession_own (h : Hub) (n : Nat) :
    (h.openSession n).2.sessions[(h.openSession n).1]? = some { capacity := n } := by
  simp [openSession]

theorem cancel_own {h : Hub} {o : ObserverId} {s : Session} (ho : h.sessionOf? o = some i)
    (hs : h.sessions[i]? = some s) : (h.cancel o).2.sessions[i]? = some s.close := by
  obtain ⟨x, next, hx, hl⟩ := exists_link ho
  simp only [cancel, hx, hl]
  exact onSession_own hs Session.close

/-- A change of one session, which may be this one or another. -/
theorem flow_onSession {h : Hub} {s : Session} (hs : h.sessions[i]? = some s) (j : SessionId)
    (f : Session → Session) {out : List Notification} (hflow : j = i → s.Flow (f s) [] out) :
    ∃ s', (h.onSession j f).sessions[i]? = some s' ∧ s.Flow s' [] (if j = i then out else []) := by
  by_cases hj : j = i
  · subst hj
    rw [if_pos rfl]
    exact ⟨f s, onSession_own hs f, hflow rfl⟩
  · rw [if_neg hj]
    exact ⟨s, (onSession_other h hj f).trans hs, .refl s⟩

/-- A change that takes nothing out. -/
theorem flow_onSession_nil {h : Hub} {s : Session} (hs : h.sessions[i]? = some s) (j : SessionId)
    {f : Session → Session} (hflow : s.Flow (f s) [] []) :
    ∃ s', (h.onSession j f).sessions[i]? = some s' ∧ s.Flow s' [] [] := by
  simpa only [ite_self] using flow_onSession hs j f fun _ => hflow

/-- The session after an act. -/
theorem flow_act {h : Hub} {s : Session} (hs : h.sessions[i]? = some s) (a : Act) :
    ∃ s', (h.act a).sessions[i]? = some s' ∧ s.Flow s' (h.takesIn i a) (h.givesOut i a) := by
  cases a with
  | openSession capacity =>
    refine ⟨s, ?_, .refl s⟩
    exact (List.getElem?_append_left (List.getElem?_eq_some_iff.mp hs).1).trans hs
  | addObserver o => exact ⟨s, hs, .refl s⟩
  | handle o m =>
    by_cases ho : h.sessionOf? o = some i
    · obtain ⟨n, htoken, hpayload, hanswer, hget⟩ := handle_on ho hs m
      refine ⟨(s.send n).2, hget, ?_⟩
      have hflow := s.flow_send n
      rw [Notification.told, htoken, hpayload, ← hanswer] at hflow
      simpa only [takesIn, givesOut, ho, true_and] using hflow
    · refine ⟨s, (handle_other ho m).trans hs, ?_⟩
      simpa only [takesIn, givesOut, ho, false_and, if_false] using Session.Flow.refl s
  | cancel o =>
    by_cases ho : h.sessionOf? o = some i
    · exact ⟨s.close, cancel_own ho hs, s.flow_close⟩
    · exact ⟨s, (cancel_other ho).trans hs, .refl s⟩
  | receive j =>
    refine flow_onSession hs j (fun s => s.receive.2) fun hj => ?_
    subst hj
    simpa only [hs, Option.bind_some] using s.flow_receive
  | drain j =>
    refine flow_onSession hs j (fun s => s.drain.2) fun hj => ?_
    subst hj
    simpa only [hs, Option.bind_some] using s.flow_drain
  | close j => exact flow_onSession_nil hs j s.flow_close
  | detach j => exact flow_onSession_nil hs j s.flow_detach
  | noticeLoss j => exact flow_onSession_nil hs j s.flow_noticeLoss

/-- The session after a run. -/
theorem flow_actAll {h : Hub} {s : Session} (hs : h.sessions[i]? = some s) (acts : List Act) :
    ∃ s', (h.actAll acts).sessions[i]? = some s' ∧
      s.Flow s' (h.takenIn i acts) (h.givenOut i acts) := by
  induction acts generalizing h s with
  | nil => exact ⟨s, hs, .refl s⟩
  | cons a acts ih =>
    obtain ⟨s', hs', hflow⟩ := flow_act hs a
    obtain ⟨s'', hs'', hflow'⟩ := ih hs'
    exact ⟨s'', hs'', hflow.trans hflow'⟩

/-- Whether the session has ended or not, its transport gets what waits, the oldest first. -/
theorem givenOut_receive {h : Hub} {s : Session} (hs : h.sessions[i]? = some s)
    (hattached : s.attached = true) (k : Nat) :
    h.givenOut i (List.replicate k (.receive i)) = s.queue.take k := by
  induction k generalizing h s with
  | zero => rfl
  | succ k ih =>
    have hafter := onSession_own hs fun s => s.receive.2
    simp only [List.replicate_succ, givenOut, givesOut, act, if_true, hs, Option.bind_some]
    cases hqueue : s.queue with
    | nil =>
      rw [Session.receive_nil hqueue] at hafter ⊢
      rw [ih hafter hattached, hqueue]
      simp
    | cons n queue =>
      rw [Session.receive_cons hattached hqueue] at hafter ⊢
      rw [ih hafter hattached]
      rfl

/-- **The queue of a session is a bounded row that loses nothing.** In any run from the opening of
the session on, an observer on it that is handed a message takes it exactly if the session has not
ended, its transport is there, and fewer notifications wait than there is room for. As long as the
transport is there, what it took out and what waits is what was taken, in order and each once. After
the end nothing goes in any more; what waits can still be taken out. -/
theorem queue_is_lossless (h : Hub) (n : Nat) (acts : List Act) :
    let i := (h.openSession n).1
    let opened := (h.openSession n).2
    let now := opened.actAll acts
    ∃ s, now.sessions[i]? = some s ∧ s.room = max n 1 ∧ s.queue.length ≤ s.room ∧
      (∀ o m, now.sessionOf? o = some i → s.Answers (now.handle o m).1 ∧
        (s.attached = false → (now.handle o m).2.sessionClosed i = true)) ∧
      (s.attached = true → (opened.givenOut i acts ++ s.queue).map Notification.told =
        opened.takenIn i acts) ∧
      (s.attached = true →
        ∀ k, now.givenOut i (List.replicate k (.receive i)) = s.queue.take k) ∧
      (s.closed = true → ∀ more, now.takenIn i more = [] ∧
        ∃ s', (now.actAll more).sessions[i]? = some s' ∧ s'.closed = true ∧
          s'.queue <:+ s.queue) := by
  intro i opened now
  obtain ⟨s, hs, hflow⟩ := flow_actAll (openSession_own h n) acts
  have hfits : s.queue.length ≤ s.room := hflow.fits (Nat.zero_le _)
  refine ⟨s, hs, hflow.room, hfits, fun o m ho => ?_, fun hattached => ?_,
    fun hattached k => givenOut_receive hs hattached k, fun hclosed more => ?_⟩
  · obtain ⟨note, -, -, hanswer, hget⟩ := handle_on ho hs m
    refine ⟨hanswer ▸ Session.answers_send hfits note, fun hattached => ?_⟩
    rw [sessionClosed, hget]
    exact Session.closed_of_send hattached note
  · obtain ⟨-, notes, htold, hqueue⟩ := hflow.kept hattached
    rw [← hqueue, List.nil_append, htold]
  · obtain ⟨s', hs', hflow'⟩ := flow_actAll hs more
    obtain ⟨hclosed', htaken, hsuffix⟩ := hflow'.closed hclosed
    exact ⟨htaken, s', hs', hclosed', hsuffix⟩

-- a session of no capacity has room for one; the second message finds it full, the fourth closed
example :
    let h := ((Hub.openSession { broker := { depth := 1 } } 0).2.addObserver (.onSession "a" 0)).2
    let tell (byte : UInt8) : Act := .handle 0 { channel := "ch", payload := [byte] }
    let acts : List Act := [tell 1, tell 2, .receive 0, tell 3, .cancel 0, tell 4]
    h.takenIn 0 acts = [("a", [1]), ("a", [3])] ∧
      (h.givenOut 0 (acts ++ [.receive 0])).map Notification.told = [("a", [1]), ("a", [3])] := by
  decide

end Hub
end Gatehouse.Observe
