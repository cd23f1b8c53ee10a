import Gatehouse.Json.Value
import Gatehouse.Json.Reader
import Gatehouse.Keys.Service
import Gatehouse.Text.Split
import Gatehouse.Time.SpanText

/-!
Settings of the gateway: their defaults, their written form, and what values are acceptable.
-/

namespace Gatehouse

structure ServerSettings where
  host : String := "127.0.0.1"
  tcpPort : Nat := 8180
  requestTimeout : Span := .ofSeconds 30
  shutdownTimeout : Span := .ofSeconds 30
  deriving DecidableEq, Repr

structure AuthSettings where
  /-- A literal, `env:` and the name of a variable, or `auto` for a random one. -/
  secret : String := "auto"
  issuerName : String := KeyService.defaultIssuer
  loginSpan : Span := .ofSeconds 36000
  resetSpan : Span := .ofSeconds 300
  deriving DecidableEq, Repr

structure CoapSettings where
  /-- Where access is checked; without it no thing has access to any channel. -/
  thingsUrl : Option String := none
  accessTimeout : Span := .ofSeconds 5
  outboxCapacity : Nat := 64
  brokerCapacity : Nat := 1024
  deriving DecidableEq, Repr

structure Settings where
  envFiles : List String := []
  server : ServerSettings := {}
  auth : AuthSettings := {}
  coap : CoapSettings := {}
  deriving DecidableEq, Repr

/-! ## Written form -/

def Span.toJson (d : Span) : Json := .text d.render

def Span.readNode (node : Json.Node) : Except Json.Fault Span := do
  match Span.read (← Json.Read.text node) with
  | .ok d => .ok d
  | .error (.number _) => .error .mismatch
  | .error .overflow => .error .overflow

def ServerSettings.toJson (s : ServerSettings) : Json :=
  .object [("host", .text s.host), ("port", .integer s.tcpPort),
    ("request_timeout", s.requestTimeout.toJson), ("shutdown_timeout", s.shutdownTimeout.toJson)]

def AuthSettings.toJson (s : AuthSettings) : Json :=
  .object [("secret", .text s.secret), ("issuer_name", .text s.issuerName),
    ("login_duration", s.loginSpan.toJson), ("reset_duration", s.resetSpan.toJson)]

def CoapSettings.toJson (s : CoapSettings) : Json :=
  .object [
    ("things_url", match s.thingsUrl with | some url => .text url | none => .null),
    ("access_timeout", s.accessTimeout.toJson), ("outbox_capacity", .integer s.outboxCapacity),
    ("broker_capacity", .integer s.brokerCapacity)]

def Settings.toJson (s : Settings) : Json :=
  .object [("env_files", .array (s.envFiles.map Json.text)), ("server", s.server.toJson),
    ("auth", s.auth.toJson), ("coap", s.coap.toJson)]

/-! ## Reading

What is not given has its default. -/

/-- Server settings of which some fields have been read. -/
structure ServerSettings.Draft where
  host : Option String := none
  tcpPort : Option Nat := none
  requestTimeout : Option Span := none
  shutdownTimeout : Option Span := none

open Json.Read in
def ServerSettings.fields : List (RecordField Draft) := [
  .slot "host" Draft.host (fun d v => { d with host := v }) text,
  .slot "port" Draft.tcpPort (fun d v => { d with tcpPort := v }) (natural Text.max16),
  .slot "request_timeout" Draft.requestTimeout (fun d v => { d with requestTimeout := v })
    Span.readNode,
  .slot "shutdown_timeout" Draft.shutdownTimeout (fun d v => { d with shutdownTimeout := v })
    Span.readNode]

def ServerSettings.Draft.finish (d : ServerSettings.Draft) : ServerSettings :=
  let s : ServerSettings := {}
  ⟨d.host.getD s.host, d.tcpPort.getD s.tcpPort, d.requestTimeout.getD s.requestTimeout,
    d.shutdownTimeout.getD s.shutdownTimeout⟩

def ServerSettings.read : Json.Node → Except Json.Fault ServerSettings :=
  Json.Read.record fields {} fun d => .ok d.finish

structure AuthSettings.Draft where
  secret : Option String := none
  issuerName : Option String := none
  loginSpan : Option Span := none
  resetSpan : Option Span := none

open Json.Read in
def AuthSettings.fields : List (RecordField Draft) := [
  .slot "secret" Draft.secret (fun d v => { d with secret := v }) text,
  .slot "issuer_name" Draft.issuerName (fun d v => { d with issuerName := v }) text,
  .slot "login_duration" Draft.loginSpan (fun d v => { d with loginSpan := v }) Span.readNode,
  .slot "reset_duration" Draft.resetSpan (fun d v => { d with resetSpan := v }) Span.readNode]

def AuthSettings.Draft.finish (d : AuthSettings.Draft) : AuthSettings :=
  let s : AuthSettings := {}
  ⟨d.secret.getD s.secret, d.issuerName.getD s.issuerName, d.loginSpan.getD s.loginSpan,
    d.resetSpan.getD s.resetSpan⟩

def AuthSettings.read : Json.Node → Except Json.Fault AuthSettings :=
  Json.Read.record fields {} fun d => .ok d.finish

structure CoapSettings.Draft where
  thingsUrl : Option (Option String) := none
  accessTimeout : Option Span := none
  outboxCapacity : Option Nat := none
  brokerCapacity : Option Nat := none

open Json.Read in
def CoapSettings.fields : List (RecordField Draft) := [
  .slot "things_url" Draft.thingsUrl (fun d v => { d with thingsUrl := v }) (optional text),
  .slot "access_timeout" Draft.accessTimeout (fun d v => { d with accessTimeout := v })
    Span.readNode,
  .slot "outbox_capacity" Draft.outboxCapacity (fun d v => { d with outboxCapacity := v })
    (natural Text.max64),
  .slot "broker_capacity" Draft.brokerCapacity (fun d v => { d with brokerCapacity := v })
    (natural Text.max64)]

def CoapSettings.Draft.finish (d : CoapSettings.Draft) : CoapSettings :=
  let s : CoapSettings := {}
  ⟨d.thingsUrl.getD s.thingsUrl, d.accessTimeout.getD s.accessTimeout,
    d.outboxCapacity.getD s.outboxCapacity, d.brokerCapacity.getD s.brokerCapacity⟩

def CoapSettings.read : Json.Node → Except Json.Fault CoapSettings :=
  Json.Read.record fields {} fun d => .ok d.finish

structure Settings.Draft where
  envFiles : Option (List String) := none
  server : Option ServerSettings := none
  auth : Option AuthSettings := none
  coap : Option CoapSettings := none

open Json.Read in
def Settings.fields : List (RecordField Draft) := [
  .slot "env_files" Draft.envFiles (fun d v => { d with envFiles := v }) (list text),
  .slot "server" Draft.server (fun d v => { d with server := v }) ServerSettings.read,
  .slot "auth" Draft.auth (fun d v => { d with auth := v }) AuthSettings.read,
  .slot "coap" Draft.coap (fun d v => { d with coap := v }) CoapSettings.read]

def Settings.Draft.finish (d : Settings.Draft) : Settings :=
  ⟨d.envFiles.getD [], d.server.getD {}, d.auth.getD {}, d.coap.getD {}⟩

def Settings.read : Json.Node → Except Json.Fault Settings :=
  Json.Read.record fields {} fun d => .ok d.finish

/-! ## Meaning -/

/-- Settings that can be read but make no sense are refused, the first offending one named. -/
def Settings.validate (s : Settings) : Except Failure Unit :=
  if (Text.trim s.auth.secret.toList).isEmpty then
    .error (.config "auth.secret must not be empty")
  else if s.auth.issuerName.isEmpty then
    .error (.config "auth.issuer_name must not be empty")
  else if s.auth.loginSpan.isZero then
    .error (.config "auth.login_duration must be positive")
  else if s.auth.resetSpan.isZero then
    .error (.config "auth.reset_duration must be positive")
  else if s.coap.outboxCapacity = 0 then
    .error (.config "coap.outbox_capacity must be positive")
  else .ok ()

/-- What the values of variables are, and the random secret that stands for `auto`. -/
structure SecretSource where
  lookup : String → Option String
  random : String

/-- The secret that is meant. A variable must be set to a text that is not empty. -/
def AuthSettings.resolveSecret (s : AuthSettings) (source : SecretSource) :
    Except Failure String :=
  if s.secret = "auto" then .ok source.random
  else
    match Text.after? ['e', 'n', 'v', ':'] s.secret.toList with
    | none => .ok s.secret
    | some name =>
      let unset := Failure.config ("auth.secret refers to unset variable " ++ String.ofList name)
      match source.lookup (String.ofList name) with
      | some value => if value.isEmpty then .error unset else .ok value
      | none => .error unset

def checkSpan (name : String) (d : Span) : Except Failure Unit :=
  if d.IsAddable then .ok ()
  else .error (.config (name ++
    " out of range: Source duration value is out of range for the target type"))

def KeyService.ofSettings (s : AuthSettings) (source : SecretSource) :
    Except Failure KeyService := do
  let secret ← s.resolveSecret source
  checkSpan "login_duration" s.loginSpan
  checkSpan "reset_duration" s.resetSpan
  return ⟨secret, s.issuerName, s.loginSpan, s.resetSpan⟩

end Gatehouse
