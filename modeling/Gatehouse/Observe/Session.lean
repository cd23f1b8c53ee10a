import Gatehouse.Failure
import Gatehouse.Message

/-!
Sessions of clients: a bounded queue of notifications that the transport takes out, and the signal
that the session has ended.

A session ends when it is closed, or when the transport lets go of the queue. The second is noticed
on its own in time (`Session.noticeLoss`), or by the next notification.
-/

namespace Gatehouse.Observe

structure Notification where
  /-- The token of the observe relation that the notification belongs to. -/
  token : String
  /-- The number of the notification in its relation, of 24 bits. -/
  observe : Nat
  contentFormat : Nat
  payload : List UInt8
  deriving DecidableEq, Repr

structure Session where
  /-- Room in the queue; a session always has room for one. -/
  capacity : Nat
  /-- Notifications not yet taken out, oldest first. -/
  queue : List Notification := []
  /-- The session has ended. -/
  closed : Bool := false
  /-- The transport still holds the queue. -/
  attached : Bool := true
  deriving DecidableEq, Repr

namespace Session

def room (s : Session) : Nat := max s.capacity 1

/-- Ends the session. What waits in the queue stays there. -/
def close (s : Session) : Session := { s with closed := true }

/-- No notification will be taken any more. -/
def isClosed (s : Session) : Bool := s.closed || !s.attached

def detach (s : Session) : Session := { s with attached := false, queue := [] }

/-- The session ends once it is noticed that the transport is gone. -/
def noticeLoss (s : Session) : Session := if s.attached then s else s.close

def send (s : Session) (n : Notification) : Except SessionFault Unit × Session :=
  if s.closed then (.error .closed, s)
  else if !s.attached then (.error .closed, s.close)
  else if s.room ≤ s.queue.length then (.error .full, s)
  else (.ok (), { s with queue := s.queue ++ [n] })

/-- Takes out the oldest notification that waits, if the transport still holds the queue. -/
def receive (s : Session) : Option Notification × Session :=
  match s.attached, s.queue with
  | true, n :: queue => (some n, { s with queue := queue })
  | _, _ => (none, s)

/-- Takes out everything that waits, if the transport still holds the queue. -/
def drain (s : Session) : Option (List Notification) × Session :=
  if s.attached then (some s.queue, { s with queue := [] }) else (none, s)

end Session

/-- The number of an observe relation's next notification. It counts in words of 32 bits from the
first value that neither registers nor deregisters. -/
abbrev Sequence := UInt32

def firstSequence : Sequence := 2

def observeNumber (n : Sequence) : Nat := n.toNat % 16777216

/-- Notifications are plain text. -/
def plainText : Nat := 0

/-- The notification that tells a message to an observe relation. -/
def notificationOf (token : String) (n : Sequence) (m : Message) : Notification :=
  ⟨token, observeNumber n, plainText, m.payload⟩

end Gatehouse.Observe
