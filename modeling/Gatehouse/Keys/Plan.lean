import Gatehouse.Keys.Audit
import Gatehouse.Keys.Vault
import Gatehouse.Notice

/-!
Plans: an operation on keys as the sequence of what it asks of its collaborators.

A plan is a tree. At each node it asks the store or the source of ids for something and goes on with
the answer, whatever that is; or it writes to the audit trail or to the operator and goes on. So the
same operation can be run against one vault (`Plan.run`), against a store that fails, or step by
step between the steps of others.
-/

namespace Gatehouse

inductive StoreCall where
  | save (issuer id : String)
  | retrieve (issuer id : String)
  | remove (issuer id : String)
  deriving DecidableEq, Repr

inductive Plan (α : Type) where
  | done (result : α)
  /-- An instant past the end of the calendar was needed; the operation ends without a result. -/
  | crash
  | save (key : Key) (next : Except Failure String → Plan α)
  | retrieve (issuer id : String) (next : Except Failure Key → Plan α)
  | remove (issuer id : String) (next : Except Failure Unit → Plan α)
  | freshId (next : Except Failure String → Plan α)
  | record (event : AuditEvent) (next : Plan α)
  | notify (notice : Notice) (next : Plan α)

namespace Plan

def bind {α β : Type} (p : Plan α) (f : α → Plan β) : Plan β :=
  match p with
  | done a => f a
  | crash => crash
  | save key next => save key fun r => (next r).bind f
  | retrieve issuer id next => retrieve issuer id fun r => (next r).bind f
  | remove issuer id next => remove issuer id fun r => (next r).bind f
  | freshId next => freshId fun r => (next r).bind f
  | record event next => record event (next.bind f)
  | notify notice next => notify notice (next.bind f)

instance : Monad Plan where
  pure := done
  bind := bind

/-- Which store calls fail, and with what. -/
structure Outage where
  save : Option Failure := none
  retrieve : Option Failure := none
  remove : Option Failure := none

/-- What plans run on: a vault, the outage of the calls to it, and the ids to come. -/
structure Backend where
  vault : Vault
  outage : Outage := {}
  ids : List (Except Failure String)

/-- What a run of a plan left behind beside its result, in order. -/
structure Trail where
  calls : List StoreCall := []
  events : List AuditEvent := []
  notices : List Notice := []

def Outage.answer {α : Type} (fault : Option Failure) (result : Except Failure α) :
    Except Failure α :=
  match fault with
  | some e => .error e
  | none => result

/-- Stores a key in the backend. A failing call stores nothing. -/
def Backend.save (b : Backend) (key : Key) : Except Failure String × Backend :=
  match b.outage.save with
  | some e => (.error e, b)
  | none => ((b.vault.save key).1, { b with vault := (b.vault.save key).2 })

def Backend.retrieve (b : Backend) (issuer id : String) : Except Failure Key :=
  Outage.answer b.outage.retrieve (b.vault.retrieve issuer id)

/-- Deletes a key from the backend. A failing call deletes nothing. -/
def Backend.remove (b : Backend) (issuer id : String) : Except Failure Unit × Backend :=
  match b.outage.remove with
  | some e => (.error e, b)
  | none => (.ok (), { b with vault := b.vault.remove issuer id })

def Backend.freshId (b : Backend) : Except Failure String × Backend :=
  match b.ids with
  | [] => (.error (.internal "no more ids"), b)
  | id :: ids => (id, { b with ids := ids })

def Trail.call (t : Trail) (c : StoreCall) : Trail := { t with calls := c :: t.calls }

def Trail.record (t : Trail) (e : AuditEvent) : Trail := { t with events := e :: t.events }

def Trail.notify (t : Trail) (n : Notice) : Trail := { t with notices := n :: t.notices }

/-- Carries a plan out. Without a result the operation has crashed. -/
def run {α : Type} : Plan α → Backend → Option α × Backend × Trail
  | done a, b => (some a, b, {})
  | crash, b => (none, b, {})
  | save key next, b =>
    let (r, b') := b.save key
    let (a, b'', trail) := (next r).run b'
    (a, b'', trail.call (.save key.issuer key.id))
  | retrieve issuer id next, b =>
    let (a, b', trail) := (next (b.retrieve issuer id)).run b
    (a, b', trail.call (.retrieve issuer id))
  | remove issuer id next, b =>
    let (r, b') := b.remove issuer id
    let (a, b'', trail) := (next r).run b'
    (a, b'', trail.call (.remove issuer id))
  | freshId next, b =>
    let (r, b') := b.freshId
    (next r).run b'
  | record event next, b =>
    let (a, b', trail) := next.run b
    (a, b', trail.record event)
  | notify notice next, b =>
    let (a, b', trail) := next.run b
    (a, b', trail.notify notice)

end Plan
end Gatehouse
