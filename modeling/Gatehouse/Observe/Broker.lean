import Gatehouse.Failure
import Gatehouse.Message

/-!
The broker inside the process: every subscriber gets every message published after it came. A
subscriber that does not keep up loses the oldest messages and learns how many.
-/

namespace Gatehouse.Observe

structure Published where
  subject : String
  message : Message
  deriving DecidableEq, Repr

structure Subscriber where
  /-- Messages not yet taken, oldest first. -/
  queue : List Published := []
  /-- How many messages were lost since the last reading. -/
  lost : Nat := 0
  deriving DecidableEq, Repr

structure Broker where
  /-- How many messages a subscriber can be behind. -/
  depth : Nat
  /-- The failure that every publication meets, if the broker is out of order. -/
  outage : Option Failure := none
  subscribers : List Subscriber := []

namespace Broker

/-- The least power of two that is not below a number, looked for from `p` on. -/
def powerFrom : Nat → Nat → Nat → Nat
  | 0, p, _ => p
  | steps + 1, p, n => if n ≤ p then p else powerFrom steps (2 * p) n

def nextPower (n : Nat) : Nat := powerFrom n 1 n

/-- A broker whose subscribers can be behind by at least `capacity` messages. -/
def ofCapacity (capacity : Nat) : Broker := { depth := nextPower (max capacity 1) }

/-- Adds a message, over the depth in exchange for the oldest one. -/
def Subscriber.push (depth : Nat) (s : Subscriber) (p : Published) : Subscriber :=
  if s.queue.length < depth then { s with queue := s.queue ++ [p] }
  else { queue := (s.queue ++ [p]).drop 1, lost := s.lost + 1 }

/-- Publishes a message. It is no failure that nobody is there. -/
def publish (b : Broker) (p : Published) : Except Failure Unit × Broker :=
  match b.outage with
  | some e => (.error e, b)
  | none => (.ok (), { b with subscribers := b.subscribers.map (Subscriber.push b.depth · p) })

def subscribe (b : Broker) : Nat × Broker :=
  (b.subscribers.length, { b with subscribers := b.subscribers ++ [{}] })

/-- Takes everything that a subscriber has not yet taken. -/
def drain (b : Broker) (i : Nat) : Subscriber × Broker :=
  ((b.subscribers[i]?).getD {}, { b with subscribers := b.subscribers.set i {} })

end Broker
end Gatehouse.Observe
