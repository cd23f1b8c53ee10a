import Gatehouse.Proofs.Observe.Requests

/-!
The life of an observe relation. A relation is the registration of a session at a place of the
registry. Ending a relation ends its session, and with it all others on that session. As long as
that does not happen, and the transport keeps the session, a relation gets everything that is
published: whatever requests are served meanwhile, and whenever waiters run.
-/

namespace Gatehouse.Observe.Hub

/-! ## What leaves a session open -/

/-- If somebody stands at the place that an event changes, that is none of this session's
observers. -/
def Spares (h : Hub) (i : SessionId) (e : Event) : Prop :=
  ∀ x, h.effect? e = some x → ∀ o, h.registry.get? x.place.1 x.place.2 = some o →
    h.sessionOf? o ≠ some i

variable {h : Hub} {i : SessionId} {s : Session}

theorem cancelLeft_other {left : Option ObserverId}
    (hleft : ∀ o, left = some o → h.sessionOf? o ≠ some i) :
    (h.cancelLeft left).2.sessions[i]? = h.sessions[i]? := by
  cases left with
  | none => rfl
  | some o => exact cancel_other (hleft o rfl)

theorem put_other {endpoint token : String} (o : ObserverId)
    (hleft : ∀ o, h.registry.get? endpoint token = some o → h.sessionOf? o ≠ some i) :
    (h.put endpoint token o).2.sessions[i]? = h.sessions[i]? :=
  cancelLeft_other (h := { h with registry := (h.registry.put endpoint token o).2 }) hleft

theorem removeIf_other {endpoint token : String} {test : ObserverId → Bool}
    (hleft : ∀ o, h.registry.get? endpoint token = some o → test o = true →
      h.sessionOf? o ≠ some i) :
    (h.removeIf endpoint token test).2.sessions[i]? = h.sessions[i]? := by
  refine cancelLeft_other
    (h := { h with registry := (h.registry.takeIf endpoint token test).2 }) fun o ho => ?_
  change (h.registry.takeIf endpoint token test).1 = some o at ho
  rw [Registry.takeIf_fst, Option.filter_eq_some_iff] at ho
  exact hleft o ho.1 ho.2

theorem sessionOf?_addObserver (x : Observer) {o : ObserverId} (ho : o < h.observers.length) :
    (h.addObserver x).2.sessionOf? o = h.sessionOf? o := by
  rw [sessionOf?, addObserver, List.getElem?_append_left ho]
  rfl

/-- An observer on an open session has not ended. -/
theorem OpenAt.not_ended (hs : h.OpenAt i s) {o : ObserverId} (ho : h.sessionOf? o = some i) :
    h.ended o = false := by
  obtain ⟨x, next, hx, hl⟩ := exists_link ho
  rw [ended_eq hx, hl]
  simp [linkEnded, sessionClosed, hs.get, hs.closed]

theorem OpenAt.onSession (hs : h.OpenAt i s) (j : SessionId) {f : Session → Session}
    (hf : i = j → (f s).closed = false ∧ (f s).attached = true) :
    ∃ s', (h.onSession j f).OpenAt i s' := by
  by_cases hij : i = j
  · subst hij
    refine ⟨f s, ?_, (hf rfl).1, (hf rfl).2⟩
    rw [Hub.onSession, List.getElem?_modify, hs.get]
    simp
  · exact ⟨s, (onSession_other h (Ne.symm hij) f).trans hs.get, hs.closed, hs.attached⟩

/-- A publication leaves an open session open. -/
theorem OpenAt.publish (hs : h.OpenAt i s) (access : AccessCheck) (now : Instant) (key : String)
    (m : Message) : ∃ s', (h.publish access now key m).hub.OpenAt i s' := by
  rw [Hub.publish]
  split
  · exact ⟨s, hs⟩
  · next thing _ =>
    obtain ⟨notes, -, -, hopen⟩ := deliver_open (stamp now thing m).endpoint (stamp now thing m)
      (h.registry.observers (stamp now thing m).endpoint) hs
    dsimp only
    split
    · exact ⟨_, hopen.get, hopen.closed, hopen.attached⟩
    · exact ⟨_, hopen.get, hopen.closed, hopen.attached⟩

theorem open_carryOut {log : List Effect} (hx : Scene.Consistent ⟨h, [], log⟩)
    (hs : h.OpenAt i s) {access : AccessCheck} {now : Instant} {j : SessionId} {r : Request}
    {o : Order} (hspares : ∀ thing, authorize access o.key o.channel = .ok thing →
      o.action ≠ .publish → ∀ standing,
        h.registry.get? (Topic.endpoint o.channel o.subtopic) r.token = some standing →
          h.sessionOf? standing ≠ some i) :
    ∃ s', (h.carryOut access now j r o).hub.OpenAt i s' := by
  rw [carryOut]
  split
  · next hact =>
    split
    · exact ⟨s, hs⟩
    · next thing haccess =>
      refine ⟨s, Eq.trans ?_ hs.get, hs.closed, hs.attached⟩
      refine put_other (h := (h.addObserver (.onSession r.token j)).2) _ fun standing hget => ?_
      have hget' : h.registry.get? (Topic.endpoint o.channel o.subtopic)
          ((h.addObserver (.onSession r.token j)).2.tokenOf h.observers.length) =
            some standing := hget
      rw [tokenOf_addObserver] at hget'
      rw [sessionOf?_addObserver _ (hx.known (hx.registered hget')).1]
      exact hspares thing haccess (by rw [hact]; decide) standing hget'
  · next hact =>
    simp only [Hub.unsubscribe]
    cases haccess : authorize access o.key o.channel with
    | error e => exact ⟨s, hs⟩
    | ok thing =>
      refine ⟨s, Eq.trans ?_ hs.get, hs.closed, hs.attached⟩
      exact removeIf_other fun standing hget _ =>
        hspares thing haccess (by rw [hact]; decide) standing hget
  · exact hs.publish access now o.key _

/-- Only the transport, and an event that does not spare the session, could end it. -/
theorem open_after {log : List Effect} (hx : Scene.Consistent ⟨h, [], log⟩) (hs : h.OpenAt i s)
    {e : Event} (hclose : e ≠ .close i) (hdetach : e ≠ .detach i) (hspares : h.Spares i e) :
    ∃ s', (h.after e).OpenAt i s' := by
  cases e with
  | openSession capacity =>
    refine ⟨s, ?_, hs.closed, hs.attached⟩
    exact (List.getElem?_append_left (List.getElem?_eq_some_iff.mp hs.get).1).trans hs.get
  | request access now j r =>
    rw [after]
    split
    · next hj =>
      rw [respond_hub]
      cases hr : r.order with
      | error code => exact ⟨s, hs⟩
      | ok o =>
        refine open_carryOut hx hs fun thing haccess hact standing hget => ?_
        cases hcases : o.action with
        | subscribe =>
          refine hspares (.subscribed (Topic.endpoint o.channel o.subtopic) r.token
            h.observers.length) ?_ standing hget
          simp only [effect?, if_pos hj, hr, haccess, hcases]
        | unsubscribe =>
          refine hspares (.unsubscribed (Topic.endpoint o.channel o.subtopic) r.token) ?_ standing
            hget
          simp only [effect?, if_pos hj, hr, haccess, hcases]
        | publish => exact absurd hcases hact
    · exact ⟨s, hs⟩
  | close j =>
    exact hs.onSession j fun hij => absurd (by rw [hij]) hclose
  | detach j =>
    exact hs.onSession j fun hij => absurd (by rw [hij]) hdetach
  | drain j =>
    refine hs.onSession j fun _ => ?_
    simp [Session.drain, hs.attached, hs.closed]
  | noticeLoss j =>
    refine hs.onSession j fun _ => ?_
    simp [Session.noticeLoss, hs.attached, hs.closed]
  | wake n =>
    rw [after]
    split
    · next hready =>
      obtain ⟨⟨endpoint, o⟩, hn, hended⟩ := (Option.any_eq_true _ _).mp hready
      rw [wake_hub _ _ hn]
      refine ⟨s, Eq.trans ?_ hs.get, hs.closed, hs.attached⟩
      refine removeIf_other (h := { h with waiters := h.waiters.eraseIdx n }) fun o' _ ho' hon => ?_
      -- the observer of a waiter that runs has ended, so its session is closed
      obtain rfl : o' = o := by simpa using ho'
      rw [hs.not_ended hon] at hended
      cases hended
    · exact ⟨s, hs⟩

/-! ## A relation through a run -/

/-- An observer on an open session is the last to have been subscribed at a place. -/
structure Relation (h : Hub) (log : List Effect) (i : SessionId) (endpoint token : String)
    (o : ObserverId) : Prop where
  consistent : Scene.Consistent ⟨h, [], log⟩
  isOpen : ∃ s, h.OpenAt i s
  session : h.sessionOf? o = some i
  standing : Standing log endpoint token o

/-- The transport keeps the session, and nothing is registered or deregistered at the place. -/
def Untouched (i : SessionId) (endpoint token : String) : Hub → List Event → Prop
  | _, [] => True
  | h, e :: es => e ≠ .close i ∧ e ≠ .detach i ∧
    (∀ x, h.effect? e = some x → x.place ≠ (endpoint, token)) ∧
    Untouched i endpoint token (h.after e) es

/-- No relation of the session is replaced or deregistered. -/
def Spared (i : SessionId) : Hub → List Event → Prop
  | _, [] => True
  | h, e :: es => h.Spares i e ∧ Spared i (h.after e) es

variable {log : List Effect} {endpoint token : String} {o : ObserverId}

theorem Relation.after (hr : Relation h log i endpoint token o) {e : Event}
    (hclose : e ≠ .close i) (hdetach : e ≠ .detach i)
    (hplace : ∀ x, h.effect? e = some x → x.place ≠ (endpoint, token)) (hspares : h.Spares i e) :
    Relation (h.after e) ((h.effect? e).toList ++ log) i endpoint token o where
  consistent := consistent_after hr.consistent e
  isOpen := by
    obtain ⟨s, hs⟩ := hr.isOpen
    exact open_after hr.consistent hs hclose hdetach hspares
  session := (later_after h e).sessionOf? hr.session
  standing := by
    cases heffect : h.effect? e with
    | none => exact hr.standing
    | some x => exact (standing_cons_iff (hplace x heffect)).mpr hr.standing

theorem Relation.served {es : List Event} (hr : Relation h log i endpoint token o)
    (hes : Untouched i endpoint token h es) (hspared : Spared i h es) :
    ∃ log', Relation (h.served es) log' i endpoint token o := by
  induction es generalizing h log with
  | nil => exact ⟨log, hr⟩
  | cons e es ih =>
    obtain ⟨hclose, hdetach, hplace, hes⟩ := hes
    obtain ⟨hspares, hspared⟩ := hspared
    exact ih (hr.after hclose hdetach hplace hspares) hes hspared

/-- The relations of a session on an endpoint, in the order in which they are served. -/
def relationsOf (h : Hub) (i : SessionId) (endpoint : String) : List ObserverId :=
  (h.registry.observers endpoint).filter fun o => h.sessionOf? o = some i

/-- What is published on the endpoint of a relation is offered to it, in turn with the other
relations of its session. -/
theorem Relation.publish (hr : Relation h log i endpoint token o) (access : AccessCheck)
    (now : Instant) {key thing : String} {m : Message} (hendpoint : m.endpoint = endpoint)
    (haccess : authorize access key m.channel = .ok thing) :
    ∃ s ahead note behind, h.OpenAt i s ∧
      (h.publish access now key m).hub.OpenAt i (s.offered (ahead ++ note :: behind)) ∧
      (ahead ++ note :: behind).map Notification.token = (h.relationsOf i endpoint).map h.tokenOf ∧
      note.token = token ∧ note.payload = m.payload ∧
      ∀ n ∈ ahead ++ behind, n.token ≠ token := by
  obtain ⟨s, hs⟩ := hr.isOpen
  have hget : h.registry.get? endpoint token = some o :=
    hr.consistent.live hr.standing (hs.not_ended hr.session)
  have htoken : h.tokenOf o = token := (hr.consistent.known hr.standing).2
  obtain ⟨notes, htokens, hpayloads, hopen⟩ := deliver_open endpoint (stamp now thing m)
    (h.registry.observers endpoint) hs
  have hnodup : (notes.map Notification.token).Nodup := by
    rw [htokens]
    refine (Registry.nodup_tokens_observers _ _ fun t o ho => ?_).sublist
      (List.filter_sublist.map h.tokenOf)
    exact (hr.consistent.known (hr.consistent.registered ho)).2
  have hmem : token ∈ notes.map Notification.token := by
    rw [htokens, ← htoken]
    refine List.mem_map_of_mem (List.mem_filter.mpr ⟨?_, by simp [hr.session]⟩)
    exact Registry.mem_observers _ _ _ hget
  obtain ⟨note, hnote, hnotetoken⟩ := List.mem_map.mp hmem
  obtain ⟨ahead, behind, rfl⟩ := List.append_of_mem hnote
  have hpublish : (h.publish access now key m).hub.sessions =
      (deliver endpoint (stamp now thing m) (h.registry.observers endpoint) h).hub.sessions := by
    subst hendpoint
    simp only [Hub.publish, haccess]
    split <;> rfl
  refine ⟨s, ahead, note, behind, hs, ⟨by rw [hpublish]; exact hopen.get, hopen.closed,
    hopen.attached⟩, htokens, hnotetoken, hpayloads note hnote, fun n hn he => ?_⟩
  rw [List.map_append, List.map_cons, List.perm_middle.nodup_iff, List.nodup_cons, ← List.map_append,
    hnotetoken] at hnodup
  exact hnodup.1 (List.mem_map.mpr ⟨n, hn, he⟩)

theorem filter_offered {s : Session} {ahead behind : List Notification} {note : Notification}
    (hroom : s.queue.length + ahead.length < s.room) (hnote : note.token = token)
    (hothers : ∀ n ∈ ahead ++ behind, n.token ≠ token) :
    ((s.offered (ahead ++ note :: behind)).queue.drop s.queue.length).filter
      (fun n => n.token = token) = [note] := by
  obtain ⟨free, hfree⟩ : ∃ free, s.room - s.queue.length = ahead.length + (free + 1) :=
    ⟨s.room - s.queue.length - ahead.length - 1, by omega⟩
  have hahead : ahead.filter (fun n => n.token = token) = [] :=
    List.filter_eq_nil_iff.mpr fun n hn => by simp [hothers n (List.mem_append_left _ hn)]
  have hbehind : (behind.take free).filter (fun n => n.token = token) = [] :=
    List.filter_eq_nil_iff.mpr fun n hn => by
      simp [hothers n (List.mem_append_right _ (List.mem_of_mem_take hn))]
  rw [Session.offered, hfree, List.drop_left, List.take_length_add_append, List.take_succ_cons,
    List.filter_append, hahead, List.filter_cons, hbehind]
  simp [hnote]

/-- The hub comes about from nothing by some events. -/
def Reachable (broker : Broker) (h : Hub) : Prop :=
  ∃ es, ({ broker := broker } : Hub).served es = h

/-- A registration that is answered with content, over an open session and not at the cost of
another relation of it, makes a relation. -/
theorem relation_of_content {broker : Broker} {access : AccessCheck} {now : Instant} {r : Request}
    {order : Order} (hh : h.Reachable broker) (hopen : ∃ s, h.OpenAt i s)
    (horder : r.order = .ok order) (haction : order.action = .subscribe)
    (hcontent : (h.respond access now i r).result.code = .content)
    (hspares : h.Spares i (.request access now i r)) :
    ∃ log, Relation (h.after (.request access now i r)) log i
      (Topic.endpoint order.channel order.subtopic) r.token h.observers.length := by
  obtain ⟨es, rfl⟩ := hh
  have hx := consistent_served (Scene.consistent_start broker) es
  obtain ⟨s, hs⟩ := hopen
  obtain ⟨thing, haccess⟩ := authorized_of_content horder haction hcontent
  have hi := (List.getElem?_eq_some_iff.mp hs.get).1
  refine ⟨_, consistent_after hx _, open_after hx hs nofun nofun hspares, ?_, ?_⟩
  · rw [after, if_pos hi]
    exact sessionOf?_respond horder haction haccess
  · simp only [effect?, if_pos hi, horder, haccess, haction]
    exact standing_cons_self

/-- **A relation stays live.** It was registered over an open session and answered with content.
Since then the transport has kept the session, nothing was registered or deregistered under its
endpoint and token, and no relation of its session was replaced or deregistered, by that
registration neither. Whatever else was served and whichever waiters have run, a publication that is
let through then offers the session one notification for each of its relations on the endpoint, and
only one of them has the token of this one. It is put into the queue, if there is room when its turn
comes. -/
theorem relation_stays_live {broker : Broker} {access access' : AccessCheck} {now : Instant}
    (now' : Instant) (j : SessionId) {r r' : Request} {order order' : Order} {later : List Event}
    {thing : String} (hh : h.Reachable broker) (hopen : ∃ s, h.OpenAt i s)
    (horder : r.order = .ok order) (haction : order.action = .subscribe)
    (hcontent : (h.respond access now i r).result.code = .content)
    (hlater : Untouched i (Topic.endpoint order.channel order.subtopic) r.token
      (h.after (.request access now i r)) later)
    (hspared : Spared i h (.request access now i r :: later))
    (horder' : r'.order = .ok order') (haction' : order'.action = .publish)
    (hchannel : order'.channel = order.channel) (hsubtopic : order'.subtopic = order.subtopic)
    (haccess' : authorize access' order'.key order'.channel = .ok thing) :
    let h' := (h.after (.request access now i r)).served later
    ∃ s ahead note behind, h'.OpenAt i s ∧
      (h'.respond access' now' j r').hub.OpenAt i (s.offered (ahead ++ note :: behind)) ∧
      (ahead ++ note :: behind).map Notification.token =
        (h'.relationsOf i (Topic.endpoint order.channel order.subtopic)).map h'.tokenOf ∧
      note.token = r.token ∧ note.payload = r'.payload ∧
      (∀ n ∈ ahead ++ behind, n.token ≠ r.token) ∧
      (s.queue.length + ahead.length < s.room →
        ((s.offered (ahead ++ note :: behind)).queue.drop s.queue.length).filter
          (fun n => n.token = r.token) = [note]) := by
  intro h'
  obtain ⟨hspares, hspared⟩ := hspared
  obtain ⟨log, hrelation⟩ := relation_of_content hh hopen horder haction hcontent hspares
  obtain ⟨log', hrelation⟩ := hrelation.served hlater hspared
  let m : Message :=
    { channel := order'.channel, subtopic := order'.subtopic, payload := r'.payload }
  have hendpoint : m.endpoint = Topic.endpoint order.channel order.subtopic := by
    show Topic.endpoint order'.channel order'.subtopic = _
    rw [hchannel, hsubtopic]
  obtain ⟨s, ahead, note, behind, hs, hs', htokens, hnote, hpayload, hothers⟩ :=
    hrelation.publish access' now' hendpoint haccess'
  refine ⟨s, ahead, note, behind, hs, ?_, htokens, hnote, hpayload, hothers, fun hroom =>
    filter_offered hroom hnote hothers⟩
  rw [respond_hub, horder']
  simp only [carryOut, haction']
  exact hs'

/-! ## Two relations on one session -/

/-- An access check that lets everyone through. -/
def everyone : AccessCheck := fun _ _ => .ok "thing"

/-- A request to the messages of one channel. -/
def onChannel (method : Method) (observe : Option Nat) (token : String) : Request :=
  ⟨method, "/channels/ch/messages", "auth=key", token, observe, [50, 49]⟩

/-- The answer to a request over the first session, and what it is as an event. -/
def answer (h : Hub) (r : Request) : Outcome Response := h.respond everyone (.ofParts 0 1) 0 r

@[inherit_doc answer]
def asked (r : Request) : Event := .request everyone (.ofParts 0 1) 0 r

/-- A hub with one session. -/
def oneSession : Hub := ({ broker := { depth := 1 } } : Hub).served [.openSession 4]

/-- The hub with a relation on that session. -/
def oneRelation : Hub := oneSession.after (asked (onChannel .get (some 0) "a"))

/-- The hub after the registration has been repeated. -/
def registeredAgain : Hub := oneRelation.after (asked (onChannel .get (some 0) "a"))

/-- Registering a relation once more ends it. The session is open, and both registrations are
answered with content; but the second cancels the first, which closes the session under them both.
The transport has kept the session, nothing but waiters has run since, and all of these have; a
publication is let through, the queue is empty, and yet nothing is put into it. -/
theorem repeated_registration_ends_session :
    oneSession.OpenAt 0 { capacity := 4 } ∧
      (oneSession.answer (onChannel .get (some 0) "a")).result.code = .content ∧
      oneRelation.OpenAt 0 { capacity := 4 } ∧
      (oneRelation.answer (onChannel .get (some 0) "a")).result.code = .content ∧
      Untouched 0 "ch." "a" registeredAgain [.wake 0, .wake 0] ∧
      (registeredAgain.served [.wake 0, .wake 0]).waiters = [] ∧
      (registeredAgain.served [.wake 0, .wake 0]).sessions[0]? =
        some { capacity := 4, closed := true } ∧
      ((registeredAgain.served [.wake 0, .wake 0]).answer (onChannel .post none "c")).result.code =
        .created ∧
      ((registeredAgain.served [.wake 0, .wake 0]).answer
        (onChannel .post none "c")).hub.sessions[0]? = some { capacity := 4, closed := true } :=
  ⟨⟨rfl, rfl, rfl⟩, by decide +kernel, ⟨by decide +kernel, rfl, rfl⟩, by decide +kernel,
    ⟨nofun, nofun, nofun, nofun, nofun, nofun, trivial⟩, by decide +kernel, by decide +kernel,
    by decide +kernel, by decide +kernel⟩

/-- As long as the other relation is only there, both are served. -/
theorem other_relation_disturbs_nobody :
    ∃ note : Notification, note.token = "a" ∧ note.payload = [50, 49] ∧
      ((((oneRelation.after (asked (onChannel .get (some 0) "b"))).answer
        (onChannel .post none "c")).hub.sessions[0]?).map fun s =>
          s.queue.filter fun n => n.token = "a") = some [note] := by
  have horder : (onChannel .get (some 0) "a").order = .ok ⟨.subscribe, "key", "ch", ""⟩ := rfl
  have hposted : (onChannel .post none "c").order = .ok ⟨.publish, "key", "ch", ""⟩ := rfl
  have hcontent : (oneSession.respond everyone (.ofParts 0 1) 0
      (onChannel .get (some 0) "a")).result.code = .content := by decide +kernel
  have haccess : authorize everyone "key" "ch" = .ok "thing" := rfl
  have hfirst : oneSession.effect? (asked (onChannel .get (some 0) "a")) =
      some (.subscribed "ch." "a" 0) := by decide +kernel
  have hsecond : oneRelation.effect? (asked (onChannel .get (some 0) "b")) =
      some (.subscribed "ch." "b" 1) := by decide +kernel
  have hlater : Untouched 0 "ch." "a" oneRelation [asked (onChannel .get (some 0) "b")] := by
    refine ⟨nofun, nofun, fun x hx => ?_, trivial⟩
    rw [hsecond] at hx
    cases hx
    decide
  have hspared : Spared 0 oneSession
      [asked (onChannel .get (some 0) "a"), asked (onChannel .get (some 0) "b")] := by
    refine ⟨fun x hx o ho => ?_, fun x hx o ho => ?_, trivial⟩
    · have hnobody : oneSession.registry.get? "ch." "a" = none := by decide +kernel
      rw [hfirst] at hx
      cases hx
      cases hnobody.symm.trans ho
    · have hnobody : oneRelation.registry.get? "ch." "b" = none := by decide +kernel
      cases hsecond.symm.trans hx
      cases hnobody.symm.trans ho
  obtain ⟨s, ahead, note, behind, hs, hs', htokens, hnote, hpayload, -, hone⟩ :=
    relation_stays_live (.ofParts 0 1) 0 ⟨[.openSession 4], rfl⟩
      ⟨{ capacity := 4 }, rfl, rfl, rfl⟩ horder rfl hcontent hlater hspared hposted rfl rfl rfl
      haccess
  have hqueue : (oneRelation.after (asked (onChannel .get (some 0) "b"))).sessions[0]? =
      some { capacity := 4 } := by decide +kernel
  have hcount : ((oneRelation.after (asked (onChannel .get (some 0) "b"))).relationsOf 0
      "ch.").length = 2 := by decide +kernel
  obtain rfl : s = { capacity := 4 } := Option.some.inj (hs.get.symm.trans hqueue)
  have hlength : (ahead ++ note :: behind).length = 2 := by
    rw [← List.length_map, htokens, List.length_map]
    exact hcount
  have hroom : ahead.length < 4 := by
    rw [List.length_append, List.length_cons] at hlength
    omega
  have hget : ((oneRelation.after (asked (onChannel .get (some 0) "b"))).answer
      (onChannel .post none "c")).hub.sessions[0]? = _ := hs'.get
  refine ⟨note, hnote, hpayload, ?_⟩
  rw [hget, Option.map_some]
  exact congrArg some (hone (by simpa [Session.room] using hroom))

end Gatehouse.Observe.Hub
