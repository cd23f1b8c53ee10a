import Gatehouse.Observe.Access
import Gatehouse.Observe.Hub
import Gatehouse.Time.Instant

/-!
Subscribing, unsubscribing and publishing. Every call first asks the access check; a call that is
refused changes nothing.
-/

namespace Gatehouse.Observe.Hub

/-- Registers an observer under its own token and sets a waiter on it. That an earlier observer
could not be cancelled is reported, and the new one is registered all the same. -/
def enrol (h : Hub) (channel subtopic : String) (o : ObserverId) : Except Failure Unit × Hub :=
  let endpoint := Topic.endpoint channel subtopic
  let (r, h) := h.put endpoint (h.tokenOf o) o
  (r, h.watch endpoint o)

def subscribe (access : AccessCheck) (h : Hub) (key channel subtopic : String) (o : ObserverId) :
    Except Failure Unit × Hub :=
  match authorize access key channel with
  | .error e => (.error (.during "subscribe" e), h)
  | .ok _ => h.enrol channel subtopic o

def unsubscribe (access : AccessCheck) (h : Hub) (key channel subtopic token : String) :
    Except Failure Unit × Hub :=
  match authorize access key channel with
  | .error e => (.error (.during "unsubscribe" e), h)
  | .ok _ => h.remove (Topic.endpoint channel subtopic) token

/-- Hands a message to observers in turn. That one does not take it does not affect the others. -/
def deliver (endpoint : String) (m : Message) : List ObserverId → Hub → Outcome Unit
  | [], h => ⟨(), h, []⟩
  | o :: os, h =>
    let (r, h') := h.handle o m
    let rest := deliver endpoint m os h'
    match r with
    | .ok () => rest
    | .error fault =>
      { rest with notices := .deliveryFailed endpoint (h.tokenOf o) fault :: rest.notices }

def protocol : String := "coap"

/-- The instant in nanoseconds since the start of 1970, zero if that has no 64 bits. -/
def nanosOf (now : Instant) : Int :=
  let n := now.seconds * 1000000000 + now.nanos
  if -9223372036854775808 ≤ n ∧ n ≤ 9223372036854775807 then n else 0

/-- The message as it goes out: with the thing that published it, and what was left open filled
in. -/
def stamp (now : Instant) (thing : String) (m : Message) : Message :=
  { m with
    publisher := thing
    protocol := if m.protocol.isEmpty then protocol else m.protocol
    created := if m.created = 0 then nanosOf now else m.created }

/-- Hands a message to everyone who observes its endpoint, then to the broker. -/
def publish (access : AccessCheck) (now : Instant) (h : Hub) (key : String) (m : Message) :
    Outcome (Except Failure Unit) :=
  match authorize access key m.channel with
  | .error e => ⟨.error (.during "publish" e), h, []⟩
  | .ok thing =>
    let m := stamp now thing m
    let delivered := deliver m.endpoint m (h.registry.observers m.endpoint) h
    let (r, broker) := delivered.hub.broker.publish ⟨m.subject, m⟩
    let h := { delivered.hub with broker := broker }
    match r with
    | .ok () => ⟨.ok (), h, delivered.notices⟩
    | .error e => ⟨.error (.during "publish" e), h, delivered.notices⟩

end Gatehouse.Observe.Hub
