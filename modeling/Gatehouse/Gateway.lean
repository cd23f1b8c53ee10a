import Gatehouse.Config.Settings
import Gatehouse.Http.Routes
import Gatehouse.Observe.Request
import Gatehouse.Observe.Things

/-!
The gateway: the key service and the hub, set up from the settings.
-/

namespace Gatehouse

structure Gateway where
  keys : KeyService
  access : Observe.AccessCheck
  hub : Observe.Hub
  /-- Room in the queues of the sessions of devices. -/
  outboxCapacity : Nat

namespace Gateway

/-- The access check that the settings name. Without one nobody has access, and the operator is
told. -/
def accessOf (s : CoapSettings) (ask : Observe.Transport) : Observe.AccessCheck × List Notice :=
  match s.thingsUrl with
  | some url => ((Observe.ThingsService.ofUrl url).check ask, [])
  | none => (Observe.Grants.check Table.empty, [.accessUnset])

/-- The gateway of some settings, and what the operator is told at the start. -/
def ofSettings (s : Settings) (source : SecretSource) (ask : Observe.Transport) :
    Except Failure (Gateway × List Notice) := do
  let keys ← KeyService.ofSettings s.auth source
  let (access, notices) := accessOf s.coap ask
  let hub : Observe.Hub := { broker := .ofCapacity s.coap.brokerCapacity }
  return (⟨keys, access, hub, s.coap.outboxCapacity⟩, notices)

def openSession (g : Gateway) : Observe.SessionId × Gateway :=
  let (id, hub) := g.hub.openSession g.outboxCapacity
  (id, { g with hub := hub })

def crashed : Http.Response := ⟨500, .words⟩

/-- Answers an HTTP request. A crash is answered too, and leaves nothing behind. -/
def answer (g : Gateway) (now : Instant) (r : Http.Request) (b : Plan.Backend) :
    Http.Response × Plan.Backend × Plan.Trail :=
  match (Http.respond g.keys now r).run b with
  | (some response, b, trail) => (response, b, trail)
  | (none, _, trail) => (crashed, b, trail)

end Gateway
end Gatehouse
