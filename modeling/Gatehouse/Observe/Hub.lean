import Gatehouse.Notice
import Gatehouse.Observe.Broker
import Gatehouse.Observe.Registry
import Gatehouse.Observe.Session

/-!
The hub: the observers with their sessions, the registry, the waiters and the broker.

A waiter stands for one registration and waits for its observer to end; then it takes that very
observer out of the registry, unless another one has taken its place. `Hub.settle` lets every waiter
run that can.
-/

namespace Gatehouse.Observe

abbrev SessionId := Nat

/-- An observer that is not backed by a session: which of its calls fail, and which cancellations
end it, counted from zero. -/
structure Device where
  handleFault : Nat → Option SessionFault := fun _ => none
  cancelFault : Nat → Option SessionFault := fun _ => none
  /-- Unless told otherwise, a cancellation ends the device if it does not fail. -/
  cancelEnds : Nat → Bool := fun n => (cancelFault n).isNone

inductive Link where
  | session (id : SessionId) (next : Sequence)
  | device (device : Device) (ended : Bool)

structure Observer where
  token : String
  link : Link
  /-- How often it was handed a message. -/
  handled : Nat := 0
  /-- How often it was cancelled. -/
  cancelled : Nat := 0

def Observer.onSession (token : String) (id : SessionId) : Observer :=
  { token := token, link := .session id firstSequence }

structure Hub where
  sessions : List Session := []
  observers : List Observer := []
  registry : Registry := Registry.empty
  /-- Endpoint and observer of every registration whose observer has not been seen to end. -/
  waiters : List (String × ObserverId) := []
  broker : Broker

/-- What a call leaves: its result, the hub after it, and what the operator is told. -/
structure Outcome (α : Type) where
  result : α
  hub : Hub
  notices : List Notice := []

namespace Hub

/-! ## Sessions and observers -/

def openSession (h : Hub) (capacity : Nat) : SessionId × Hub :=
  (h.sessions.length, { h with sessions := h.sessions ++ [{ capacity := capacity }] })

def onSession (h : Hub) (id : SessionId) (f : Session → Session) : Hub :=
  { h with sessions := h.sessions.modify id f }

def addObserver (h : Hub) (o : Observer) : ObserverId × Hub :=
  (h.observers.length, { h with observers := h.observers ++ [o] })

def sessionClosed (h : Hub) (id : SessionId) : Bool :=
  match h.sessions[id]? with
  | some s => s.closed
  | none => true

def ended (h : Hub) (id : ObserverId) : Bool :=
  match h.observers[id]? with
  | some o =>
    match o.link with
    | .session s _ => h.sessionClosed s
    | .device _ ended => ended
  | none => false

def tokenOf (h : Hub) (id : ObserverId) : String := (h.observers[id]?.map Observer.token).getD ""

def handle (h : Hub) (id : ObserverId) (m : Message) : Except SessionFault Unit × Hub :=
  match h.observers[id]? with
  | none => (.ok (), h)
  | some o =>
    match o.link with
    | .session s next =>
      let o' := { o with link := .session s (next + 1), handled := o.handled + 1 }
      let h := { h with observers := h.observers.set id o' }
      match h.sessions[s]? with
      | none => (.error .closed, h)
      | some session =>
        let (r, session) := session.send (notificationOf o.token next m)
        (r, { h with sessions := h.sessions.set s session })
    | .device d _ =>
      let h := { h with observers := h.observers.set id { o with handled := o.handled + 1 } }
      match d.handleFault o.handled with
      | some fault => (.error fault, h)
      | none => (.ok (), h)

/-- Cancels an observer: ends the session it is on. -/
def cancel (h : Hub) (id : ObserverId) : Except SessionFault Unit × Hub :=
  match h.observers[id]? with
  | none => (.ok (), h)
  | some o =>
    let o' := { o with cancelled := o.cancelled + 1 }
    match o.link with
    | .session s _ =>
      (.ok (), { h with observers := h.observers.set id o' }.onSession s Session.close)
    | .device d ended =>
      let o' := { o' with link := .device d (ended || d.cancelEnds o.cancelled) }
      let h := { h with observers := h.observers.set id o' }
      match d.cancelFault o.cancelled with
      | some fault => (.error fault, h)
      | none => (.ok (), h)

/-- Ends an observer from its own side. -/
def finish (h : Hub) (id : ObserverId) : Hub :=
  match h.observers[id]? with
  | none => h
  | some o =>
    match o.link with
    | .session s _ => h.onSession s Session.close
    | .device d _ => { h with observers := h.observers.set id { o with link := .device d true } }

/-! ## The registry -/

def unsubscribed : Except SessionFault Unit → Except Failure Unit
  | .ok () => .ok ()
  | .error fault => .error (.unsubscribe fault)

/-- Cancels the observer that has left the registry, if one has. -/
def cancelLeft (h : Hub) : Option ObserverId → Except Failure Unit × Hub
  | none => (.ok (), h)
  | some o =>
    let (r, h) := h.cancel o
    (unsubscribed r, h)

/-- Registers an observer. One that stood in its place is cancelled; that this may fail does not
keep the new one out. -/
def put (h : Hub) (endpoint token : String) (o : ObserverId) : Except Failure Unit × Hub :=
  let (left, registry) := h.registry.put endpoint token o
  { h with registry := registry }.cancelLeft left

def removeIf (h : Hub) (endpoint token : String) (test : ObserverId → Bool) :
    Except Failure Unit × Hub :=
  let (left, registry) := h.registry.takeIf endpoint token test
  { h with registry := registry }.cancelLeft left

def remove (h : Hub) (endpoint token : String) : Except Failure Unit × Hub :=
  h.removeIf endpoint token fun _ => true

/-- Takes out and cancels an observer, if it is the one that stands under its token. -/
def removeObserver (h : Hub) (endpoint : String) (o : ObserverId) : Except Failure Unit × Hub :=
  h.removeIf endpoint (h.tokenOf o) (· == o)

def watch (h : Hub) (endpoint : String) (o : ObserverId) : Hub :=
  { h with waiters := h.waiters ++ [(endpoint, o)] }

/-! ## Waiters -/

/-- The waiter at a place in the row runs: its observer has ended and leaves the registry. -/
def wake (h : Hub) (i : Nat) : Outcome Unit :=
  match h.waiters[i]? with
  | none => ⟨(), h, []⟩
  | some (endpoint, o) =>
    let (r, h) := { h with waiters := h.waiters.eraseIdx i }.removeObserver endpoint o
    match r with
    | .ok () => ⟨(), h, []⟩
    | .error e => ⟨(), h, [.cleanupFailed endpoint (h.tokenOf o) e]⟩

def ready? (h : Hub) : Option Nat := h.waiters.findIdx? fun w => h.ended w.2

/-- Lets at most that many waiters run, as long as one can. -/
def wakeAll : Nat → Hub → Outcome Unit
  | 0, h => ⟨(), h, []⟩
  | n + 1, h =>
    match h.ready? with
    | none => ⟨(), h, []⟩
    | some i =>
      let first := h.wake i
      let rest := wakeAll n first.hub
      ⟨(), rest.hub, first.notices ++ rest.notices⟩

/-- Lets everything run that waits for something that has happened: sessions notice that their
transport is gone, and waiters run until none can. Every waiter runs once at most. -/
def settle (h : Hub) : Outcome Unit :=
  let h := { h with sessions := h.sessions.map Session.noticeLoss }
  wakeAll h.waiters.length h

end Hub
end Gatehouse.Observe
