import Gatehouse.Http.KeyApi
import Gatehouse.Http.Percent

/-!
Which endpoint answers a request.

The path decides first, then the method, then what the endpoint needs of the request.
-/

namespace Gatehouse.Http

inductive Route where
  | keys
  /-- One key, by its id as sent. -/
  | key (id : List Char)
  | identify
  | health
  deriving DecidableEq, Repr

def Route.ofPath (path : List Char) : Option Route :=
  if path = "/keys".toList then some .keys
  else if path = "/identify".toList then some .identify
  else if path = "/health".toList then some .health
  else
    match Text.after? "/keys/".toList path with
    | some id => if id.isEmpty || id.contains '/' then none else some (.key id)
    | none => none

namespace Response

def notFound : Response := ⟨404, .empty⟩

def methodNotAllowed : Response := ⟨405, .empty⟩

def tooLarge : Response := ⟨413, .words⟩

def unsupported : Response := ⟨415, .words⟩

def badPath : Response := ⟨400, .words⟩

/-- The body is no JSON, or JSON of another shape. -/
def badBody : Json.Fault → Response
  | .malformed => ⟨400, .words⟩
  | _ => ⟨422, .words⟩

def withoutBody (r : Response) : Response := { r with body := .empty }

end Response

/-- Answers a request about keys; the id in the path must be text. -/
def withId (id : List Char) (answer : String → Plan Response) : Plan Response :=
  match Percent.decodeText? (String.ofList id) with
  | some id => answer id
  | none => .done .badPath

/-- Answers a request that brings a token in its body. -/
def withToken (r : Request) (answer : String → Plan Response) : Plan Response :=
  if !r.announcesJson then .done .unsupported
  else if r.isTooLarge then .done .tooLarge
  else
    match Json.Read.document readToken (Json.Document.ofBytes r.body) with
    | .ok token => answer token
    | .error fault => .done (.badBody fault)

def Route.answer (s : KeyService) (now : Instant) (r : Request) : Route → Method → Plan Response
  | .keys, .post =>
    if r.isTooLarge then .done .tooLarge else issueKey s now r.credential r.body
  | .key id, .get => withId id (showKey s now r.credential)
  | .key id, .delete => withId id (revokeKey s now r.credential)
  | .identify, .post => withToken r (identifyToken s now)
  | .health, .get => .done healthy
  | _, _ => .done .methodNotAllowed

def respond (s : KeyService) (now : Instant) (r : Request) : Plan Response :=
  match Route.ofPath r.path with
  | none => .done .notFound
  | some route =>
    match r.method with
    | .head => do return (← route.answer s now r .get).withoutBody
    | method => route.answer s now r method

end Gatehouse.Http
