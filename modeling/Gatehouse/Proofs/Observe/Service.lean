import Gatehouse.Observe.Request
import Gatehouse.Proofs.Failure
import Gatehouse.Proofs.Observe.Changes

/-!
The calls of the service, refused and let through. Whatever the access check fails with, the call is
over with a rejection, and the hub is as it was (`Hub.refused_without_access`). A publication that is
let through hands one stamped message to every entry of its endpoint and then to the broker, whose
answer is the answer of the call (`Hub.publish_fans_out`).
-/

namespace Gatehouse.Observe

/-! ## Rejections -/

/-- How a failure of the access check reaches the caller: as a rejection that reads like any other.
One that was a rejection keeps its reason, and any other stands behind a rejection of its own. -/
structure Rejection (cause f : Failure) : Prop where
  kind : f.kind = .unauthorized
  message : f.root.message = "unauthorized access"
  kept : cause.kind = .unauthorized →
    ∃ reason, cause.denyReason? = some reason ∧ f.denyReason? = some reason
  blamed : cause.kind ≠ .unauthorized →
    f.denyReason? = some .accessDenied ∧ f.root.source? = some (.failure cause)

theorem rejection_asDenial (cause : Failure) : Rejection cause (asDenial cause) := by
  by_cases hkind : cause.kind = .unauthorized
  · have hsame : asDenial cause = cause := if_pos (decide_eq_true hkind)
    obtain ⟨reason, hreason⟩ :=
      Option.isSome_iff_exists.mp (cause.denyReason?_isSome_iff.mpr hkind)
    rw [hsame]
    exact ⟨hkind, cause.message_root_eq_iff.mpr hkind, fun _ => ⟨reason, hreason, hreason⟩,
      fun hnot => absurd hkind hnot⟩
  · have hdenied : asDenial cause = .denied .accessDenied cause := by
      rw [asDenial, Failure.isUnauthorized, decide_eq_false hkind]
      rfl
    rw [hdenied]
    exact ⟨rfl, rfl, fun hyes => absurd hyes hkind, fun _ => ⟨rfl, rfl⟩⟩

/-- The operation that is named around a rejection does not change it. -/
theorem Rejection.during {cause f : Failure} (h : Rejection cause f) (operation : String) :
    Rejection cause (.during operation f) :=
  ⟨h.kind, h.message, h.kept, h.blamed⟩

namespace Hub

variable {access : AccessCheck} {key channel : String} {e : Failure}

theorem authorize_of_error (haccess : access key channel = .error e) :
    authorize access key channel = .error (asDenial e) := by
  rw [authorize, haccess]

theorem subscribe_of_error (h : Hub) (haccess : access key channel = .error e)
    (subtopic : String) (o : ObserverId) :
    h.subscribe access key channel subtopic o = (.error (.during "subscribe" (asDenial e)), h) := by
  rw [subscribe, authorize_of_error haccess]

theorem unsubscribe_of_error (h : Hub) (haccess : access key channel = .error e)
    (subtopic token : String) :
    h.unsubscribe access key channel subtopic token =
      (.error (.during "unsubscribe" (asDenial e)), h) := by
  rw [unsubscribe, authorize_of_error haccess]

theorem publish_of_error (h : Hub) {m : Message} (haccess : access key m.channel = .error e)
    (now : Instant) :
    h.publish access now key m = ⟨.error (.during "publish" (asDenial e)), h, []⟩ := by
  rw [publish, authorize_of_error haccess]

/-- A refused order is over with the rejection. -/
theorem carryOut_of_error (h : Hub) {o : Order} (haccess : access o.key o.channel = .error e)
    (now : Instant) (session : SessionId) (r : Request) :
    ∃ operation,
      h.carryOut access now session r o = ⟨.error (.during operation (asDenial e)), h, []⟩ := by
  unfold carryOut
  cases o.action with
  | subscribe => exact ⟨"subscribe", by rw [authorize_of_error haccess]⟩
  | unsubscribe => exact ⟨"unsubscribe", by rw [unsubscribe_of_error h haccess]⟩
  | publish => exact ⟨"publish", publish_of_error h haccess now⟩

/-- **No access, no effect.** Whatever the access check fails with, subscribing, unsubscribing and
publishing fail with a rejection and leave the hub as it was, down to the last observer, session,
waiter and subscriber. A request of a device that comes as far as the check is answered 4.03. -/
theorem refused_without_access (h : Hub) (haccess : access key channel = .error e) :
    (∀ subtopic o, ∃ f,
      h.subscribe access key channel subtopic o = (.error f, h) ∧ Rejection e f) ∧
    (∀ subtopic token, ∃ f,
      h.unsubscribe access key channel subtopic token = (.error f, h) ∧ Rejection e f) ∧
    (∀ (now : Instant) (m : Message), m.channel = channel → ∃ f,
      h.publish access now key m = ⟨.error f, h, []⟩ ∧ Rejection e f) ∧
    ∀ (now : Instant) (session : SessionId) (r : Request) (o : Order), r.order = .ok o →
      o.key = key → o.channel = channel → ∃ code, code.dotted = "4.03" ∧
        h.respond access now session r = ⟨⟨code, r.token⟩, h, []⟩ := by
  have hrejection := rejection_asDenial e
  refine ⟨fun subtopic o => ?_, fun subtopic token => ?_, ?_, ?_⟩
  · exact ⟨_, subscribe_of_error h haccess subtopic o, hrejection.during _⟩
  · exact ⟨_, unsubscribe_of_error h haccess subtopic token, hrejection.during _⟩
  · rintro now m rfl
    exact ⟨_, publish_of_error h haccess now, hrejection.during _⟩
  · rintro now session r o horder rfl rfl
    obtain ⟨operation, hcarried⟩ := carryOut_of_error h haccess now session r
    have hcode : ResponseCode.ofFailure (.during operation (asDenial e)) = .forbidden := by
      rw [ResponseCode.ofFailure, (hrejection.during operation).kind]
      rfl
    refine ⟨.forbidden, rfl, ?_⟩
    simp only [respond, horder, hcarried, hcode]
    rfl

/-- An outage behind two operations: the caller reads a rejection, and the cause is kept. -/
theorem outage_reads_as_rejection :
    let e : Failure := .during "identify thing" (.during "request" (.remote "unreachable"))
    let access : AccessCheck := fun _ _ => .error e
    let h : Hub := { sessions := [{ capacity := 4 }], broker := .ofCapacity 4 }
    let r : Request := ⟨.get, "/channels/ch/messages", "auth=key", "t", some 0, []⟩
    (∃ f, h.publish access (.ofParts 0 1) "key" { channel := "ch" } = ⟨.error f, h, []⟩ ∧
      f.root.message = "unauthorized access" ∧ f.root.source? = some (.failure e)) ∧
    ∃ code, code.dotted = "4.03" ∧ h.respond access (.ofParts 0 1) 0 r = ⟨⟨code, "t"⟩, h, []⟩ := by
  have horder : (⟨.get, "/channels/ch/messages", "auth=key", "t", some 0, []⟩ : Request).order =
      .ok ⟨.subscribe, "key", "ch", ""⟩ := rfl
  intro e access h r
  have haccess : access "key" "ch" = .error e := rfl
  obtain ⟨-, -, hpublish, hrespond⟩ := refused_without_access h haccess
  obtain ⟨f, hf, hrejection⟩ := hpublish (.ofParts 0 1) { channel := "ch" } rfl
  have hcause : e.kind ≠ .unauthorized := by
    intro hkind
    cases hkind
  exact ⟨⟨f, hf, hrejection.message, (hrejection.blamed hcause).2⟩,
    hrespond (.ofParts 0 1) 0 r _ horder rfl rfl⟩

/-! ## Delivery to everyone -/

/-- A message is handed to observers, one after the other. -/
def handedAll (m : Message) (os : List ObserverId) (h : Hub) : Hub :=
  os.foldl (fun h o => (h.handle o m).2) h

variable {h : Hub} {m : Message} {o i : ObserverId}

theorem deliver_hub (endpoint : String) (m : Message) (os : List ObserverId) (h : Hub) :
    (deliver endpoint m os h).hub = h.handedAll m os := by
  induction os generalizing h with
  | nil => rfl
  | cons o os ih =>
    rw [deliver_cons_hub]
    exact ih _

theorem handle_broker (h : Hub) (o : ObserverId) (m : Message) :
    (h.handle o m).2.broker = h.broker := by
  rcases handle_cases h o m with ⟨-, hsame⟩ | ⟨x, link, sessions, -, hchanged⟩
  · rw [hsame]
  · rw [hchanged]

theorem handedAll_broker (m : Message) (os : List ObserverId) (h : Hub) :
    (h.handedAll m os).broker = h.broker := by
  induction os generalizing h with
  | nil => rfl
  | cons o os ih => exact (ih _).trans (handle_broker h o m)

theorem count_handle (m : Message) (ho : o < h.observers.length) :
    (h.handle i m).2.count Observer.handled o =
      h.count Observer.handled o + if i = o then 1 else 0 := by
  rcases handle_cases h i m with ⟨hnone, hsame⟩ | ⟨x, link, sessions, hx, hchanged⟩
  · have hi : i ≠ o := Nat.ne_of_gt (Nat.lt_of_lt_of_le ho (List.getElem?_eq_none_iff.mp hnone))
    rw [hsame, if_neg hi, Nat.add_zero]
  · rw [hchanged]
    exact count_set (h := h) hx rfl

/-- Every observer is handed the message once for each time that it is named. -/
theorem count_handedAll (m : Message) (os : List ObserverId) (ho : o < h.observers.length) :
    (h.handedAll m os).count Observer.handled o = h.count Observer.handled o + os.count o := by
  induction os generalizing h with
  | nil => rfl
  | cons i os ih =>
    have hrest := ih (h := (h.handle i m).2) ((quiet_handle h i m).observers_length ▸ ho)
    have hfirst := count_handle (h := h) (i := i) m ho
    show ((h.handle i m).2.handedAll m os).count Observer.handled o = _
    rw [hrest, hfirst, List.count_cons]
    simp only [beq_iff_eq]
    omega

/-! ## Publishing -/

/-- The message that goes out when a thing publishes. -/
structure Stamped (thing : String) (m out : Message) : Prop where
  publisher : out.publisher = thing
  channel : out.channel = m.channel
  subtopic : out.subtopic = m.subtopic
  payload : out.payload = m.payload
  protocol : m.protocol ≠ "" → out.protocol = m.protocol
  created : m.created ≠ 0 → out.created = m.created

theorem stamped_stamp (now : Instant) (thing : String) (m : Message) :
    Stamped thing m (stamp now thing m) where
  publisher := rfl
  channel := rfl
  subtopic := rfl
  payload := rfl
  protocol hprotocol := by
    have hempty : ¬ m.protocol.isEmpty = true := fun he => hprotocol (String.isEmpty_iff.mp he)
    simp only [stamp, if_neg hempty]
  created hcreated := by simp only [stamp, if_neg hcreated]

/-- A publication of a message: `out` goes to `entries` and then to the broker. -/
structure FanOut (h : Hub) (m out : Message) (entries : List (String × ObserverId))
    (done : Outcome (Except Failure Unit)) : Prop where
  /-- The entries are those of the endpoint when the publication begins, each of them once. -/
  nodup : (entries.map Prod.fst).Nodup
  mem_iff : ∀ token o, (token, o) ∈ entries ↔
    h.registry.get? (Topic.endpoint m.channel m.subtopic) token = some o
  /-- The message is handed to them and to the broker, and nothing else happens. -/
  hub_eq : done.hub =
    { h.handedAll out (entries.map Prod.snd) with
      broker := (h.broker.publish ⟨Topic.subject m.channel m.subtopic, out⟩).2 }
  handled : ∀ o < h.observers.length, done.hub.count Observer.handled o =
    h.count Observer.handled o + (entries.map Prod.snd).count o
  registry_eq : done.hub.registry = h.registry
  ok_iff : done.result = .ok () ↔
    (h.broker.publish ⟨Topic.subject m.channel m.subtopic, out⟩).1 = .ok ()
  error : ∀ e, (h.broker.publish ⟨Topic.subject m.channel m.subtopic, out⟩).1 = .error e →
    ∃ f, done.result = .error f ∧ f.kind = e.kind

/-- What is left of a publication once it is let through. -/
theorem publish_of_ok {access : AccessCheck} {key thing : String} (now : Instant)
    (haccess : access key m.channel = .ok thing) :
    h.publish access now key m =
      let out := stamp now thing m
      let delivered := deliver m.endpoint out (h.registry.observers m.endpoint) h
      let published := h.broker.publish ⟨m.subject, out⟩
      { result := published.1.mapError (Failure.during "publish")
        hub := { h.handedAll out (h.registry.observers m.endpoint) with broker := published.2 }
        notices := delivered.notices } := by
  have hauthorized : authorize access key m.channel = .ok thing := by rw [authorize, haccess]
  have hendpoint : (stamp now thing m).endpoint = m.endpoint := rfl
  have hsubject : (stamp now thing m).subject = m.subject := rfl
  simp only [publish, hauthorized, hendpoint, hsubject, deliver_hub, handedAll_broker]
  cases h.broker.publish ⟨m.subject, stamp now thing m⟩ with
  | mk r broker => cases r <;> rfl

/-- **Publishing reaches everyone.** A message of a thing that may use the channel is handed once to
each entry of its endpoint, and to nobody else, and then once to the broker, however the observers
take it. It is the same message everywhere, with the thing as its publisher. What the broker answers
decides the result. -/
theorem publish_fans_out {access : AccessCheck} {key thing : String} (h : Hub) (m : Message)
    (now : Instant) (haccess : access key m.channel = .ok thing) :
    ∃ out entries, Stamped thing m out ∧ FanOut h m out entries (h.publish access now key m) := by
  have hpublish := publish_of_ok (h := h) now haccess
  have hregistry := (quiet_publish access now h key m).registry_eq
  refine ⟨stamp now thing m, (h.registry.tableAt m.endpoint).entries, stamped_stamp now thing m, ?_⟩
  rw [hpublish] at hregistry ⊢
  refine ⟨(h.registry.tableAt m.endpoint).nodup, fun token o => Table.mem_entries_iff, rfl, ?_,
    hregistry, ?_, ?_⟩
  · intro o ho
    exact count_handedAll _ _ ho
  · show Except.mapError _ (h.broker.publish ⟨m.subject, _⟩).1 = .ok () ↔
      (h.broker.publish ⟨m.subject, _⟩).1 = .ok ()
    cases (h.broker.publish ⟨m.subject, stamp now thing m⟩).1 with
    | ok => exact Iff.rfl
    | error e => exact iff_of_false (fun h => by cases h) (fun h => by cases h)
  · intro e he
    have hresult : (h.broker.publish ⟨m.subject, stamp now thing m⟩).1.mapError
        (Failure.during "publish") = .error (.during "publish" e) := congrArg _ he
    exact ⟨_, hresult, rfl⟩

/-- Nobody takes the message, a device because it fails and a client because its queue is full, and
the broker is out of order. Both were handed it once, and the broker's failure is the result. -/
theorem nobody_takes_it :
    let device : Observer :=
      { token := "d", link := .device { handleFault := fun _ => some .closed } false }
    let client : Observer := .onSession "c" 0
    let full : Session := { capacity := 1, queue := [⟨"c", 2, 0, []⟩] }
    let start : Hub :=
      { sessions := [full], observers := [device, client],
        broker := { depth := 1, outage := some (.remote "down") } }
    let h := ((start.put "ch." "d" 0).2.put "ch." "c" 1).2
    let access : AccessCheck := fun _ _ => .ok "thing"
    let m : Message := { channel := "ch", publisher := "someone else" }
    let done := h.publish access (.ofParts 0 1) "key" m
    done.hub.count Observer.handled 0 = 1 ∧ done.hub.count Observer.handled 1 = 1 ∧
      done.hub.registry = h.registry ∧ ∃ f, done.result = .error f ∧ f.kind = .remote := by
  intro device client full start h access m done
  have haccess : access "key" m.channel = .ok "thing" := rfl
  obtain ⟨out, entries, -, hfan⟩ := publish_fans_out h m (.ofParts 0 1) haccess
  obtain ⟨f, hf, hkind⟩ := hfan.error (.remote "down") rfl
  exact ⟨by decide +kernel, by decide +kernel, hfan.registry_eq, f, hf, hkind⟩

end Hub
end Gatehouse.Observe
