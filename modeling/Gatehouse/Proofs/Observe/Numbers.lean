import Gatehouse.Proofs.Observe.Isolation
import Gatehouse.Proofs.Observe.Outbox

/-!
The numbers of notifications. An observer on a session numbers the messages that it is handed, taken
or not, from the first number on that neither registers nor deregisters, in 32 bits, of which 24 are
sent (`Hub.Numbered`). Since the shorter count divides the longer one, the numbers that are sent go
round as if they were counted alone (`observeNumber_add`). So they stay in order for ever
(`Hub.numbers_stay_in_serial_order`), but from the second lap on they pass through the two numbers
that the first one leaves out (`Hub.number_is_reserved_iff`).
-/

namespace Gatehouse.Observe

/-- The number under which an observer sends the message that it is handed after `n` others. -/
def callNumber (n : Nat) : Nat := (firstSequence.toNat + n) % 16777216

/-- That the count itself goes round, in 32 bits, makes no difference. -/
theorem observeNumber_add (n : Nat) :
    observeNumber (firstSequence + UInt32.ofNat n) = callNumber n := by
  rw [observeNumber, callNumber, UInt32.toNat_add, UInt32.toNat_ofNat']
  omega

/-- Of two numbers that go round, the later is less than half a lap ahead. -/
def Fresher (later earlier : Nat) : Prop :=
  0 < ((later : Int) - earlier) % 16777216 ∧ ((later : Int) - earlier) % 16777216 < 8388608

theorem callNumber_ne {n n' : Nat} (hlt : n < n') (hlap : n' < n + 16777216) :
    callNumber n ≠ callNumber n' := by
  unfold callNumber
  omega

theorem fresher_callNumber {n n' : Nat} (hlt : n < n') (hhalf : n' < n + 8388608) :
    Fresher (callNumber n') (callNumber n) := by
  unfold Fresher callNumber
  omega

/-- In a request, the number asks to register or to deregister. -/
def IsReserved (k : Nat) : Prop := ∃ action, actionOf .get (some k) = some action

theorem isReserved_iff {k : Nat} : IsReserved k ↔ k = 0 ∨ k = 1 := by
  constructor
  · rintro ⟨action, h⟩
    rw [actionOf_eq_some_iff] at h
    cases action with
    | subscribe => exact .inl (Option.some.inj h.2)
    | unsubscribe => exact .inr (Option.some.inj h.2)
    | publish => cases h
  · rintro (rfl | rfl)
    · exact ⟨.subscribe, rfl⟩
    · exact ⟨.unsubscribe, rfl⟩

theorem isReserved_callNumber_iff (n : Nat) :
    IsReserved (callNumber n) ↔ 16777214 ≤ n % 16777216 := by
  have hfirst : firstSequence.toNat = 2 := rfl
  rw [isReserved_iff, callNumber, hfirst]
  omega

namespace Hub

/-! ## Counting -/

/-- The act hands the observer a message. -/
def Act.hands (o : ObserverId) : Act → Bool
  | .handle o' _ => o' == o
  | _ => false

/-- How often a run hands the observer a message. -/
def handings (o : ObserverId) (acts : List Act) : Nat := acts.countP (Act.hands o)

/-- The observer is on the session, under the token, and has been handed `n` messages. -/
def Numbered (h : Hub) (o : ObserverId) (token : String) (i : SessionId) (n : Nat) : Prop :=
  ∃ x, h.observers[o]? = some x ∧ x.token = token ∧
    x.link = .session i (firstSequence + UInt32.ofNat n)

variable {h : Hub} {o : ObserverId} {token : String} {i : SessionId} {n : Nat}

theorem numbered_addObserver (h : Hub) (token : String) (i : SessionId) :
    Numbered (h.addObserver (.onSession token i)).2 (h.addObserver (.onSession token i)).1 token i
      0 :=
  ⟨.onSession token i, by simp [addObserver], rfl, rfl⟩

theorem Numbered.handle (hn : Numbered h o token i n) (m : Message) :
    Numbered (h.handle o m).2 o token i (n + 1) := by
  obtain ⟨x, hx, rfl, hl⟩ := hn
  have hnext : firstSequence + UInt32.ofNat n + 1 = firstSequence + UInt32.ofNat (n + 1) := by
    rw [UInt32.ofNat_add, UInt32.add_assoc]
    rfl
  let x' : Observer := { x with
    link := .session i (firstSequence + UInt32.ofNat (n + 1))
    handled := x.handled + 1 }
  have hset : (h.observers.set o x')[o]? = some x' :=
    List.getElem?_set_self (List.getElem?_eq_some_iff.mp hx).1
  refine ⟨x', ?_, rfl, rfl⟩
  simp only [Hub.handle, hx, hl, hnext]
  split
  · exact hset
  · exact hset

/-- What befalls other observers does not count. -/
theorem Numbered.of_get (hn : Numbered h o token i n) {h' : Hub}
    (hget : h'.observers[o]? = h.observers[o]?) : Numbered h' o token i n := by
  obtain ⟨x, hx, htoken, hl⟩ := hn
  exact ⟨x, hget.trans hx, htoken, hl⟩

theorem getElem?_handle_of_ne (h : Hub) {o' : ObserverId} (ho : o' ≠ o) (m : Message) :
    (h.handle o' m).2.observers[o]? = h.observers[o]? := by
  rcases handle_cases h o' m with ⟨-, hsame⟩ | ⟨x, link, sessions, -, hchanged⟩
  · rw [hsame]
  · rw [hchanged]
    exact List.getElem?_set_ne ho

theorem Numbered.cancel (hn : Numbered h o token i n) (o' : ObserverId) :
    Numbered (h.cancel o').2 o token i n := by
  rw [Hub.cancel]
  split
  · exact hn
  · next y hy =>
    by_cases ho : o' = o
    · subst ho
      obtain ⟨x, hx, rfl, hl⟩ := hn
      obtain rfl : x = y := Option.some.inj (hx.symm.trans hy)
      simp only [hl]
      exact ⟨_, List.getElem?_set_self (List.getElem?_eq_some_iff.mp hx).1, rfl, rfl⟩
    · have hset : ∀ y', (h.observers.set o' y')[o]? = h.observers[o]? := fun y' =>
        List.getElem?_set_ne ho
      split
      · exact hn.of_get (hset _)
      · dsimp only
        split
        · exact hn.of_get (hset _)
        · exact hn.of_get (hset _)

/-- Only handing it a message makes an observer count. -/
theorem Numbered.act (hn : Numbered h o token i n) (a : Act) :
    Numbered (h.act a) o token i (n + if a.hands o then 1 else 0) := by
  cases a with
  | handle o' m =>
    by_cases ho : o' = o
    · subst ho
      rw [Act.hands, if_pos (beq_self_eq_true o')]
      exact hn.handle m
    · rw [if_neg (by simpa [Act.hands] using ho)]
      exact hn.of_get (getElem?_handle_of_ne h ho m)
  | addObserver y =>
    obtain ⟨x, hx, htoken, hl⟩ := hn
    refine ⟨x, ?_, htoken, hl⟩
    exact (List.getElem?_append_left (List.getElem?_eq_some_iff.mp hx).1).trans hx
  | cancel o' => exact hn.cancel o'
  | _ => exact hn

theorem Numbered.actAll (hn : Numbered h o token i n) (acts : List Act) :
    Numbered (h.actAll acts) o token i (n + handings o acts) := by
  induction acts generalizing h n with
  | nil => exact hn
  | cons a acts ih =>
    have hrest := ih (hn.act a)
    have hcount : handings o (a :: acts) = (if a.hands o then 1 else 0) + handings o acts := by
      rw [handings, List.countP_cons, Nat.add_comm]
      rfl
    rw [hcount, ← Nat.add_assoc]
    exact hrest

/-! ## Numbers in a queue -/

/-- What the observer makes of the message that it is handed after `n` others. -/
def noteOf (token : String) (n : Nat) (m : Message) : Notification :=
  ⟨token, callNumber n, plainText, m.payload⟩

theorem Numbered.handle_sends (hn : Numbered h o token i n) {s : Session}
    (hs : h.sessions[i]? = some s) (m : Message) :
    (h.handle o m).1 = (s.send (noteOf token n m)).1 ∧
      (h.handle o m).2.sessions[i]? = some (s.send (noteOf token n m)).2 := by
  obtain ⟨x, hx, rfl, hl⟩ := hn
  have hnote : notificationOf x.token (firstSequence + UInt32.ofNat n) m = noteOf x.token n m := by
    rw [notificationOf, observeNumber_add, noteOf]
  rw [← hnote]
  exact Hub.handle_sends hx hl hs m

/-- In the run, the message that the observer is handed after `n` others puts the notification into
the queue of the session. -/
def Delivers (h : Hub) (i : SessionId) (o : ObserverId) (acts : List Act) (n : Nat)
    (note : Notification) : Prop :=
  ∃ before m after, acts = before ++ .handle o m :: after ∧ handings o before = n ∧
    ((h.actAll before).handle o m).2.queueOf i = (h.actAll before).queueOf i ++ [note]

theorem observe_of_delivers (hn : Numbered h o token i 0) {acts : List Act} {note : Notification}
    (hd : h.Delivers i o acts n note) : note.observe = callNumber n := by
  obtain ⟨before, m, after, -, rfl, hqueue⟩ := hd
  have hbefore := hn.actAll before
  rw [Nat.zero_add] at hbefore
  cases hs : (h.actAll before).sessions[i]? with
  | none =>
    obtain ⟨x, hx, -, hl⟩ := hbefore
    simp [Hub.handle, hx, hl, hs, queueOf] at hqueue
  | some s =>
    obtain ⟨-, hget⟩ := hbefore.handle_sends hs m
    simp only [queueOf, hget, hs, Option.map_some, Option.getD_some] at hqueue
    rcases queue_send s (noteOf token (handings o before) m) with hsame | hput
    · simp [hsame] at hqueue
    · rw [hput] at hqueue
      obtain rfl := List.singleton_inj.mp (List.append_cancel_left hqueue)
      rfl

theorem lt_handings_of_delivers {acts : List Act} {note : Notification}
    (hd : h.Delivers i o acts n note) : n < handings o acts := by
  obtain ⟨before, m, after, rfl, rfl, -⟩ := hd
  have hhands : (Act.handle o m).hands o = true := beq_self_eq_true o
  rw [handings, handings, List.countP_append, List.countP_cons_of_pos hhands]
  omega

/-- **Numbers stay in serial order for ever.** However often an observer on a session has been
handed a message, taken or not, it sends the next one under that count, taken round 24 bits from the
first number on. So no number comes twice within a lap of calls, and of two notifications in the
queue that are less than half a lap of calls apart the later one is the fresher by its number. -/
theorem numbers_stay_in_serial_order (h : Hub) (token : String) (i : SessionId) :
    let o := (h.addObserver (.onSession token i)).1
    let made := (h.addObserver (.onSession token i)).2
    (∀ acts m s, (made.actAll acts).sessions[i]? = some s →
      let note : Notification :=
        ⟨token, (2 + handings o acts) % 16777216, plainText, m.payload⟩
      ((made.actAll acts).handle o m).1 = (s.send note).1 ∧
        ((made.actAll acts).handle o m).2.sessions[i]? = some (s.send note).2) ∧
    (∀ n n', n < n' → n' < n + 16777216 → callNumber n ≠ callNumber n') ∧
    ∀ acts n n' note note', made.Delivers i o acts n note → made.Delivers i o acts n' note' →
      n < n' → note.observe = callNumber n ∧ note'.observe = callNumber n' ∧
        (n' < n + 8388608 → Fresher note'.observe note.observe) := by
  intro o made
  have hmade : Numbered made o token i 0 := numbered_addObserver h token i
  refine ⟨fun acts m s hs => ?_, fun n n' => callNumber_ne, ?_⟩
  · have hnow := hmade.actAll acts
    rw [Nat.zero_add] at hnow
    exact hnow.handle_sends hs m
  · intro acts n n' note note' hd hd' hlt
    rw [observe_of_delivers hmade hd, observe_of_delivers hmade hd']
    exact ⟨rfl, rfl, fresher_callNumber hlt⟩

/-- **When a number is reserved.** The notification of the message that an observer is handed after
`n` others has a number that asks to register or to deregister exactly if the call is one of the
last two of a lap. So none has among the first 2 ^ 24 - 2 calls. -/
theorem number_is_reserved_iff (h : Hub) (token : String) (i : SessionId) (acts : List Act) :
    let o := (h.addObserver (.onSession token i)).1
    let made := (h.addObserver (.onSession token i)).2
    (∀ n note, made.Delivers i o acts n note →
      (IsReserved note.observe ↔ 16777214 ≤ n % 16777216)) ∧
    (handings o acts ≤ 16777214 →
      ∀ n note, made.Delivers i o acts n note → ¬ IsReserved note.observe) := by
  intro o made
  have hmade : Numbered made o token i 0 := numbered_addObserver h token i
  have hiff : ∀ n note, made.Delivers i o acts n note →
      (IsReserved note.observe ↔ 16777214 ≤ n % 16777216) := by
    intro n note hd
    rw [observe_of_delivers hmade hd]
    exact isReserved_callNumber_iff n
  refine ⟨hiff, fun hlap n note hd hreserved => ?_⟩
  have hcall := lt_handings_of_delivers hd
  have hlast := (hiff n note hd).mp hreserved
  omega

/-! ## The end of a lap -/

/-- An open session takes what its observer is handed, as long as it has room. -/
theorem Numbered.queueOf_handle (hn : Numbered h o token i n) {s : Session} (hs : h.OpenAt i s)
    (hroom : s.queue.length < s.room) (m : Message) :
    (h.handle o m).2.queueOf i = h.queueOf i ++ [noteOf token n m] := by
  obtain ⟨-, hget⟩ := hn.handle_sends hs.get m
  rw [Session.send_open hs.closed hs.attached, Session.offered_singleton hroom] at hget
  simp [queueOf, hget, hs.get]

/-- A session stays open however often its observer is handed a message. -/
theorem openAt_replicate (m : Message) (k : Nat) {h : Hub} (ho : h.sessionOf? o = some i)
    {s : Session} (hs : h.OpenAt i s) :
    ∃ s', (h.actAll (List.replicate k (.handle o m))).OpenAt i s' := by
  induction k generalizing h s with
  | zero => exact ⟨s, hs⟩
  | succ k ih =>
    obtain ⟨note, -, -, hopen⟩ := handle_own ho hs m
    exact ih ((quiet_handle h o m).toLater.sessionOf? ho) hopen

/-- Once the transport has taken out what waits, the next message gets through. -/
theorem delivers_after_drain (hn : Numbered h o token i 0) {s : Session} (hs : h.OpenAt i s)
    (m : Message) (k : Nat) :
    h.Delivers i o (List.replicate k (.handle o m) ++ [.drain i] ++ [.handle o m]) k
      (noteOf token k m) := by
  have hcount : handings o (List.replicate k (.handle o m) ++ [.drain i]) = k := by
    simp [handings, List.countP_append, List.countP_replicate, Act.hands]
  have hnow := hn.actAll (List.replicate k (.handle o m) ++ [.drain i])
  rw [hcount, Nat.zero_add] at hnow
  obtain ⟨x, hx, -, hl⟩ := hn
  obtain ⟨s', hs'⟩ := openAt_replicate m k (sessionOf?_of_link hx hl) hs
  have hdrained : ((h.actAll (List.replicate k (.handle o m))).act (.drain i)).OpenAt i
      { s' with queue := [] } := by
    have hget := onSession_own hs'.get fun s => s.drain.2
    rw [Session.drain, if_pos hs'.attached] at hget
    exact ⟨hget, hs'.closed, hs'.attached⟩
  refine ⟨_, m, [], rfl, hcount, ?_⟩
  have hrun : h.actAll (List.replicate k (.handle o m) ++ [.drain i]) =
      (h.actAll (List.replicate k (.handle o m))).act (.drain i) := by
    simp [actAll]
  rw [hrun] at hnow ⊢
  exact hnow.queueOf_handle hdrained (Nat.lt_of_lt_of_le Nat.zero_lt_one (Nat.le_max_right _ _)) m

/-- At the end of the first lap, when the transport takes out what waits, the next message is told
under the number that registers. -/
theorem lap_ends_in_reserved_number :
    let m : Message := { channel := "ch", payload := [1] }
    let h : Hub := { sessions := [{ capacity := 1 }], broker := { depth := 1 } }
    let made := (h.addObserver (.onSession "t" 0)).2
    let lap : List Act := List.replicate 16777214 (.handle 0 m) ++ [.drain 0]
    made.Delivers 0 0 (lap ++ [.handle 0 m]) 16777214 ⟨"t", 0, plainText, [1]⟩ ∧
      IsReserved 0 := by
  intro m h made lap
  have hopen : made.OpenAt 0 { capacity := 1 } := ⟨rfl, rfl, rfl⟩
  exact ⟨delivers_after_drain (numbered_addObserver h "t" 0) hopen m 16777214, .subscribe, rfl⟩

end Hub
end Gatehouse.Observe
