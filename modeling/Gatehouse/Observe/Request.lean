import Gatehouse.Observe.Response
import Gatehouse.Observe.Service
import Gatehouse.Text.Word

/-!
Requests of devices: `/channels/{channel}/messages[/{subtopic...}]`, with the key in the query.

Getting with observe 0 subscribes, with observe 1 unsubscribes, posting publishes. Method, path, key
and observe value are checked in this order, and only then is the access check asked.
-/

namespace Gatehouse.Observe

inductive Method where
  | get
  | post
  | put
  | delete
  deriving DecidableEq, Repr

structure Request where
  method : Method
  path : String
  query : String
  token : String
  observe : Option Nat
  payload : List UInt8
  deriving DecidableEq, Repr

def isChannelChar (c : Char) : Bool := c == '-' || Text.isWord c

/-- The rest of the path after the channel: nothing, or a slash and no question mark after it. -/
def isTail (cs : List Char) : Bool :=
  match cs with
  | [] => true
  | c :: _ => c == '/' && !cs.contains '?'

def parsePathChars (path : List Char) : Option (List Char × List Char) := do
  let path := (Text.after? ['/'] path).getD path
  let rest ← Text.after? "channels/".toList path
  let channel := rest.takeWhile isChannelChar
  let tail ← Text.after? "/messages".toList (rest.dropWhile isChannelChar)
  if channel.isEmpty || !isTail tail then none
  else
    match Topic.normalizeChars tail with
    | .ok subtopic => some (channel, subtopic)
    | .error _ => none

def parsePath (path : String) : Option (String × String) :=
  (parsePathChars path.toList).map fun (c, s) => (String.ofList c, String.ofList s)

/-- The value of the first `auth` parameter, if it is not empty. -/
def authKey (query : String) : Option String :=
  let pairs := Text.splitOn '&' (query.toList.dropWhile (· == '?'))
  match pairs.findSome? (Text.after? "auth=".toList) with
  | some key => if key.isEmpty then none else some (String.ofList key)
  | none => none

inductive Action where
  | subscribe
  | unsubscribe
  | publish
  deriving DecidableEq, Repr

def Action.success : Action → ResponseCode
  | subscribe => .content
  | unsubscribe => .deleted
  | publish => .created

def actionOf (method : Method) (observe : Option Nat) : Option Action :=
  match method, observe with
  | .post, _ => some .publish
  | .get, some 0 => some .subscribe
  | .get, some 1 => some .unsubscribe
  | _, _ => none

/-- A request whose form is right. -/
structure Order where
  action : Action
  key : String
  channel : String
  subtopic : String
  deriving DecidableEq, Repr

/-- Checks the form of a request; the first thing wrong decides the answer. -/
def Request.order (r : Request) : Except ResponseCode Order :=
  if r.method = .put ∨ r.method = .delete then .error .methodNotAllowed
  else
    match parsePath r.path with
    | none => .error .badRequest
    | some (channel, subtopic) =>
      match authKey r.query with
      | none => .error .unauthorized
      | some key =>
        match actionOf r.method r.observe with
        | none => .error .badRequest
        | some action => .ok ⟨action, key, channel, subtopic⟩

namespace Hub

/-- Carries an order out for a client session. Subscribing makes a new observer on that session. -/
def carryOut (access : AccessCheck) (now : Instant) (h : Hub) (session : SessionId) (r : Request)
    (o : Order) : Outcome (Except Failure Unit) :=
  match o.action with
  | .subscribe =>
    match authorize access o.key o.channel with
    | .error e => ⟨.error (.during "subscribe" e), h, []⟩
    | .ok _ =>
      let (id, h) := h.addObserver (.onSession r.token session)
      let (result, h) := h.enrol o.channel o.subtopic id
      ⟨result, h, []⟩
  | .unsubscribe =>
    let (result, h) := h.unsubscribe access o.key o.channel o.subtopic r.token
    ⟨result, h, []⟩
  | .publish =>
    h.publish access now o.key
      { channel := o.channel, subtopic := o.subtopic, payload := r.payload }

def respond (access : AccessCheck) (now : Instant) (h : Hub) (session : SessionId) (r : Request) :
    Outcome Response :=
  match r.order with
  | .error code => ⟨⟨code, r.token⟩, h, []⟩
  | .ok order =>
    let done := h.carryOut access now session r order
    match done.result with
    | .ok () => ⟨⟨order.action.success, r.token⟩, done.hub, done.notices⟩
    | .error e =>
      let code := ResponseCode.ofFailure e
      let told := if code = .internalError then [.deviceRequestFailed r.path e] else []
      ⟨⟨code, r.token⟩, done.hub, done.notices ++ told⟩

end Hub
end Gatehouse.Observe
