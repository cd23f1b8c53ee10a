import Gatehouse.Proofs.Observe.Address
import Gatehouse.Proofs.Observe.Requests

/-!
Who gets what. Only publications put anything into the queue of a session, and what they put there
goes back to a subscription of that very session, with that token, to that very channel and
subtopic, let through when it came (`Hub.notification_stems_from_subscription`). The registry is
asked by endpoint alone; that endpoints of different channels are different is `Topic.endpoint_inj`.
-/

namespace Gatehouse.Observe

theorem authorize_eq_ok_iff {access : AccessCheck} {key channel thing : String} :
    authorize access key channel = .ok thing ↔ access key channel = .ok thing := by
  rw [authorize]
  cases access key channel with
  | ok thing' => simp
  | error e => simp

/-- The request names the channel and the subtopic, with a key that was granted there. -/
def Request.GrantedOn (r : Request) (access : AccessCheck) (channel subtopic : String) : Prop :=
  parsePath r.path = some (channel, subtopic) ∧
    ∃ key thing, authKey r.query = some key ∧ access key channel = .ok thing

theorem Request.grantedOn_of_order {r : Request} {o : Order} {access : AccessCheck}
    {thing : String} (horder : r.order = .ok o)
    (haccess : authorize access o.key o.channel = .ok thing) :
    r.GrantedOn access o.channel o.subtopic := by
  obtain ⟨hpath, hkey, -⟩ := order_eq_ok_iff.mp horder
  exact ⟨hpath, o.key, thing, hkey, authorize_eq_ok_iff.mp haccess⟩

namespace Hub

/-! ## What is put into a queue -/

/-- What waits in the queue of a session; nothing if there is no such session. -/
def queueOf (h : Hub) (i : SessionId) : List Notification :=
  (h.sessions[i]?.map Session.queue).getD []

/-- From one hub to the other nothing was put into the queue of the session but such
notifications, and nothing was taken out. -/
def Gains (i : SessionId) (P : Notification → Prop) (h h' : Hub) : Prop :=
  ∃ put, h'.queueOf i = h.queueOf i ++ put ∧ ∀ n ∈ put, P n

section Gains

variable {i : SessionId} {P Q : Notification → Prop} {h h' h'' : Hub}

theorem Gains.of_eq (heq : h'.queueOf i = h.queueOf i) : Gains i P h h' :=
  ⟨[], by rw [heq, List.append_nil], nofun⟩

theorem Gains.trans (hg : Gains i P h h') (hg' : Gains i P h' h'') : Gains i P h h'' := by
  obtain ⟨put, hqueue, hput⟩ := hg
  obtain ⟨put', hqueue', hput'⟩ := hg'
  refine ⟨put ++ put', by rw [hqueue', hqueue, List.append_assoc], fun n hn => ?_⟩
  rcases List.mem_append.mp hn with hn | hn
  · exact hput n hn
  · exact hput' n hn

theorem Gains.mono (hg : Gains i P h h') (hPQ : ∀ n, P n → Q n) : Gains i Q h h' := by
  obtain ⟨put, hqueue, hput⟩ := hg
  exact ⟨put, hqueue, fun n hn => hPQ n (hput n hn)⟩

end Gains

/-- Sending puts the notification at the end, or nothing. -/
theorem queue_send (s : Session) (n : Notification) :
    (s.send n).2.queue = s.queue ∨ (s.send n).2.queue = s.queue ++ [n] := by
  obtain ⟨-, hsend⟩ | ⟨-, -, hsend⟩ | ⟨-, -, -, hsend⟩ | ⟨-, -, -, hsend⟩ := s.send_cases n
  · exact .inl (by rw [hsend])
  · exact .inl (by rw [hsend]; rfl)
  · exact .inl (by rw [hsend])
  · exact .inr (by rw [hsend])

variable (i : SessionId)

/-- An observer that is handed a message tells it to its own session, under its token. -/
theorem gains_handle (h : Hub) (o : ObserverId) (m : Message) :
    Gains i (fun n => h.sessionOf? o = some i ∧ n.token = h.tokenOf o ∧ n.payload = m.payload) h
      (h.handle o m).2 := by
  by_cases ho : h.sessionOf? o = some i
  · cases hs : h.sessions[i]? with
    | none =>
      obtain ⟨x, next, hx, hl⟩ := exists_link ho
      exact .of_eq (by simp only [handle, hx, hl, hs, queueOf])
    | some s =>
      obtain ⟨note, htoken, hpayload, -, hget⟩ := handle_on ho hs m
      rcases queue_send s note with hqueue | hqueue
      · exact .of_eq (by simp [queueOf, hget, hs, hqueue])
      · refine ⟨[note], by simp [queueOf, hget, hs, hqueue], ?_⟩
        intro n hn
        obtain rfl := List.mem_singleton.mp hn
        exact ⟨ho, htoken, hpayload⟩
  · refine .of_eq ?_
    rw [queueOf, queueOf, handle_other ho]

theorem gains_deliver (endpoint : String) (m : Message) (os : List ObserverId) (h : Hub) :
    Gains i (fun n => ∃ o ∈ os, h.sessionOf? o = some i ∧ n.token = h.tokenOf o ∧
      n.payload = m.payload) h (deliver endpoint m os h).hub := by
  induction os generalizing h with
  | nil => exact .of_eq rfl
  | cons o os ih =>
    rw [deliver_cons_hub]
    have hq := quiet_handle h o m
    refine Gains.trans ((gains_handle i h o m).mono fun n hn => ⟨o, List.mem_cons_self, hn⟩)
      ((ih (h.handle o m).2).mono ?_)
    rintro n ⟨o', ho', hown, htoken, hpayload⟩
    rw [hq.sessionOf?_eq] at hown
    rw [hq.tokenOf_eq] at htoken
    exact ⟨o', List.mem_cons_of_mem _ ho', hown, htoken, hpayload⟩

theorem gains_publish (access : AccessCheck) (now : Instant) (h : Hub) (key : String)
    (m : Message) :
    Gains i (fun n => (∃ thing, authorize access key m.channel = .ok thing) ∧
      n.payload = m.payload ∧ ∃ o ∈ h.registry.observers m.endpoint,
        h.sessionOf? o = some i ∧ n.token = h.tokenOf o) h (h.publish access now key m).hub := by
  rw [publish]
  cases haccess : authorize access key m.channel with
  | error e => exact .of_eq rfl
  | ok thing =>
    have hdelivered := gains_deliver i m.endpoint (stamp now thing m)
      (h.registry.observers m.endpoint) h
    have hgains : Gains i (fun n => (∃ thing', Except.ok thing = Except.ok (ε := Failure) thing') ∧
        n.payload = m.payload ∧ ∃ o ∈ h.registry.observers m.endpoint,
          h.sessionOf? o = some i ∧ n.token = h.tokenOf o) h
        (deliver m.endpoint (stamp now thing m) (h.registry.observers m.endpoint) h).hub := by
      refine hdelivered.mono ?_
      rintro n ⟨o, ho, hown, htoken, hpayload⟩
      exact ⟨⟨thing, rfl⟩, hpayload, o, ho, hown, htoken⟩
    dsimp only
    split
    · exact hgains.trans (.of_eq rfl)
    · exact hgains.trans (.of_eq rfl)

/-- The end of a session leaves in its queue what is there. -/
theorem queueOf_cancel (h : Hub) (o : ObserverId) : (h.cancel o).2.queueOf i = h.queueOf i := by
  rw [cancel]
  split
  · rfl
  · split
    · next j next hl =>
      simp only [queueOf, onSession, List.getElem?_modify]
      cases h.sessions[i]? with
      | none => rfl
      | some s => by_cases hij : j = i <;> simp [hij, Session.close]
    · dsimp only
      split <;> rfl

theorem queueOf_cancelLeft (h : Hub) (left : Option ObserverId) :
    (h.cancelLeft left).2.queueOf i = h.queueOf i := by
  cases left with
  | none => rfl
  | some o => exact queueOf_cancel i h o

/-- An order puts something into a queue only if it publishes. -/
theorem gains_carryOut (access : AccessCheck) (now : Instant) (h : Hub) (j : SessionId)
    (r : Request) (o : Order) :
    Gains i (fun n => o.action = .publish ∧
      (∃ thing, authorize access o.key o.channel = .ok thing) ∧ n.payload = r.payload ∧
        ∃ x ∈ h.registry.observers (Topic.endpoint o.channel o.subtopic),
          h.sessionOf? x = some i ∧ n.token = h.tokenOf x) h
      (h.carryOut access now j r o).hub := by
  rw [carryOut]
  cases o.action with
  | subscribe =>
    dsimp only
    split
    · exact .of_eq rfl
    · exact .of_eq (queueOf_cancelLeft i _ _)
  | unsubscribe =>
    dsimp only [unsubscribe]
    split
    · exact .of_eq rfl
    · exact .of_eq (queueOf_cancelLeft i _ _)
  | publish => exact (gains_publish i access now h o.key _).mono fun n hn => ⟨rfl, hn⟩

/-- A request puts something into a queue only if it is let through and publishes, and then only
for observers of the endpoint that it names. -/
theorem gains_after_request (access : AccessCheck) (now : Instant) (h : Hub) (j : SessionId)
    (r : Request) :
    Gains i (fun n => ∃ o thing, r.order = .ok o ∧ o.action = .publish ∧
      authorize access o.key o.channel = .ok thing ∧ n.payload = r.payload ∧
        ∃ x ∈ h.registry.observers (Topic.endpoint o.channel o.subtopic),
          h.sessionOf? x = some i ∧ n.token = h.tokenOf x) h
      (h.after (.request access now j r)) := by
  rw [after, respond_hub]
  split
  · cases r.order with
    | error code => exact .of_eq rfl
    | ok o =>
      refine (gains_carryOut i access now h j r o).mono ?_
      rintro n ⟨haction, ⟨thing, haccess⟩, hpayload, hobserver⟩
      exact ⟨o, thing, rfl, haction, haccess, hpayload, hobserver⟩
  · exact .of_eq rfl

/-! ## Where an observer comes from -/

/-- Registrations are made by requests that ask for them and are let through. -/
theorem request_of_subscribed {h : Hub} {e : Event} {endpoint token : String} {x : ObserverId}
    (heffect : h.effect? e = some (.subscribed endpoint token x)) :
    ∃ access now j r o thing, e = .request access now j r ∧ j < h.sessions.length ∧
      r.order = .ok o ∧ o.action = .subscribe ∧ authorize access o.key o.channel = .ok thing ∧
      endpoint = Topic.endpoint o.channel o.subtopic ∧ token = r.token ∧
      x = h.observers.length := by
  cases e with
  | request access now j r =>
    simp only [effect?] at heffect
    split at heffect
    · next hj =>
      split at heffect
      · cases heffect
      · next o horder =>
        split at heffect
        · cases heffect
        · next thing haccess =>
          cases haction : o.action with
          | subscribe =>
            rw [haction] at heffect
            cases heffect
            exact ⟨access, now, j, r, o, thing, rfl, hj, horder, haction, haccess, rfl, rfl, rfl⟩
          | unsubscribe => simp [haction] at heffect
          | publish => simp [haction] at heffect
    · cases heffect
  | _ => cases heffect

/-- Among the events, a request over the session registered with the token for the channel and the
subtopic. It was let through when it came, and nothing was registered or deregistered in its place
since. -/
def Subscribed (h : Hub) (es : List Event) (i : SessionId) (token channel subtopic : String) :
    Prop :=
  ∃ earlier access now r later, es = earlier ++ .request access now i r :: later ∧
    r.method = .get ∧ r.observe = some 0 ∧ r.token = token ∧ r.GrantedOn access channel subtopic ∧
    ∀ x ∈ ((h.served earlier).after (.request access now i r)).effects later,
      x.place ≠ (Topic.endpoint channel subtopic, token)

/-- Every observer that stands in the registry stems from a subscription over its session. -/
theorem exists_subscription {broker : Broker} {es : List Event} {endpoint : String}
    {x : ObserverId} {i : SessionId}
    (hmem : x ∈ (({ broker := broker } : Hub).served es).registry.observers endpoint)
    (hsession : (({ broker := broker } : Hub).served es).sessionOf? x = some i) :
    ∃ channel subtopic, endpoint = Topic.endpoint channel subtopic ∧ '.' ∉ channel.toList ∧
      ({ broker := broker } : Hub).Subscribed es i
        ((({ broker := broker } : Hub).served es).tokenOf x) channel subtopic := by
  have hx := consistent_served (Scene.consistent_start broker) es
  obtain ⟨token, hget⟩ := Registry.exists_of_mem_observers _ _ hmem
  have hstanding := hx.registered hget
  have htoken := (hx.known hstanding).2
  obtain ⟨later, rest, hlog, hlater⟩ := hstanding
  rw [List.append_nil] at hlog
  obtain ⟨earlier, e, since, rfl, heffect, rfl⟩ := exists_event_of_effects hlog
  obtain ⟨access, now, j, r, o, thing, rfl, hj, horder, haction, haccess, rfl, rfl, rfl⟩ :=
    request_of_subscribed heffect
  obtain ⟨hpath, -, hask⟩ := order_eq_ok_iff.mp horder
  rw [haction, actionOf_eq_some_iff] at hask
  -- the observer has been on the session of that request ever since
  have hmade : ((({ broker := broker } : Hub).served earlier).after
      (.request access now j r)).sessionOf?
        (({ broker := broker } : Hub).served earlier).observers.length = some j := by
    rw [after, if_pos hj]
    exact sessionOf?_respond horder haction haccess
  have hstays := (later_served _ since).sessionOf? hmade
  have hserved : ({ broker := broker } : Hub).served (earlier ++ .request access now j r :: since) =
      ((({ broker := broker } : Hub).served earlier).after (.request access now j r)).served
        since := by
    simp [served]
  rw [hserved] at hsession htoken ⊢
  obtain rfl : j = i := Option.some.inj (hstays.symm.trans hsession)
  exact ⟨o.channel, o.subtopic, rfl, dot_not_mem_channel hpath, earlier, access, now, r, since, rfl,
    hask.1, hask.2, htoken.symm, Request.grantedOn_of_order horder haccess, by
      rw [htoken]
      exact hlater⟩

/-- **Nothing crosses from one channel to another.** Whatever was served before, over whatever
sessions, with grants coming and going (every request brings the access check as it is at that
time): a request puts a notification into the queue of a session only if it is a post whose key is
granted on the channel that its path names, and only if an earlier request over that session has
subscribed with the notification's token to the same channel and the same subtopic, with a key
granted there at that time. That registration is the last that was made in its place, and it was not
taken back. -/
theorem notification_stems_from_subscription (broker : Broker) (es : List Event)
    (access : AccessCheck) (now : Instant) (j : SessionId) (r : Request) (i : SessionId) :
    let h := ({ broker := broker } : Hub).served es
    ∃ put, (h.after (.request access now j r)).queueOf i = h.queueOf i ++ put ∧
      ∀ n ∈ put, r.method = .post ∧ n.payload = r.payload ∧
        ∃ channel subtopic, r.GrantedOn access channel subtopic ∧
          ({ broker := broker } : Hub).Subscribed es i n.token channel subtopic := by
  intro h
  refine (gains_after_request i access now h j r).mono ?_
  rintro n ⟨o, thing, horder, haction, haccess, hpayload, x, hx, hsession, htoken⟩
  obtain ⟨hpath, -, hask⟩ := order_eq_ok_iff.mp horder
  rw [haction, actionOf_eq_some_iff] at hask
  obtain ⟨channel, subtopic, hendpoint, hdot, hsubscribed⟩ := exists_subscription hx hsession
  obtain ⟨rfl, rfl⟩ := Topic.endpoint_inj (dot_not_mem_channel hpath) hdot hendpoint
  rw [← htoken] at hsubscribed
  exact ⟨hask, hpayload, o.channel, o.subtopic, Request.grantedOn_of_order horder haccess,
    hsubscribed⟩

/-- A subscription with one key, and then a post with another, whose path is written otherwise. -/
def subscribing : Request := ⟨.get, "/channels/ch/messages/a/b", "auth=k", "t", some 0, []⟩

@[inherit_doc subscribing]
def posting : Request := ⟨.post, "channels/ch/messages//a/b/", "?auth=l", "u", none, [50]⟩

/-- The grants when the subscription comes, and when the post does: the first key has lost its
own. -/
def grantsBefore : Grants := Grants.grant Table.empty "k" "ch" "watcher"

@[inherit_doc grantsBefore]
def grantsAfter : Grants := (grantsBefore.withdraw "k" "ch").grant "l" "ch" "sensor"

/-- Two sessions; the first has subscribed. -/
def subscribed : List Event := [.openSession 4, .openSession 4,
  .request grantsBefore.check (.ofParts 0 0) 0 subscribing]

/-- A subscription outlives the grant that it was made with. -/
theorem subscription_outlives_grant :
    ∃ n : Notification, n.token = "t" ∧ n.payload = [50] ∧
      ((({ broker := { depth := 1 } } : Hub).served subscribed).after
        (.request grantsAfter.check (.ofParts 1 0) 1 posting)).queueOf 0 = [n] ∧
      ({ broker := { depth := 1 } } : Hub).Subscribed subscribed 0 "t" "ch" "a.b" := by
  obtain ⟨put, hqueue, hput⟩ := notification_stems_from_subscription { depth := 1 } subscribed
    grantsAfter.check (.ofParts 1 0) 1 posting 0
  have hempty : (({ broker := { depth := 1 } } : Hub).served subscribed).queueOf 0 = [] := by
    decide +kernel
  have htokens : (((({ broker := { depth := 1 } } : Hub).served subscribed).after
      (.request grantsAfter.check (.ofParts 1 0) 1 posting)).queueOf 0).map Notification.token =
        ["t"] := by decide +kernel
  rw [hempty, List.nil_append] at hqueue
  rw [hqueue] at htokens
  obtain ⟨n, rfl, htoken⟩ := List.map_eq_singleton_iff.mp htokens
  obtain ⟨-, hpayload, channel, subtopic, ⟨hpath, -⟩, hsubscribed⟩ :=
    hput n List.mem_cons_self
  have hparsed : parsePath posting.path = some ("ch", "a.b") := by decide +kernel
  cases hparsed.symm.trans hpath
  rw [htoken] at hsubscribed
  exact ⟨n, htoken, hpayload, hqueue, hsubscribed⟩

end Hub
end Gatehouse.Observe
