import Gatehouse.CommandLine.Help
import Gatehouse.Config.Load
import Gatehouse.Gateway

/-!
What a command line leads to: something printed and an exit code, or a gateway that is to serve.

Commands about keys need no store, as they only meet keys that are not stored. What goes wrong
before a command starts is a matter of the log, and nothing is printed about it.
-/

namespace Gatehouse.CommandLine

/-- What a run of the program prints, and the code it ends with. -/
structure Report where
  code : Nat
  out : List String := []
  err : List String := []
  deriving DecidableEq, Repr

inductive Outcome where
  | finished (report : Report)
  /-- The gateway is to serve HTTP at a host. -/
  | serving (gateway : Gateway) (server : ServerSettings)

def Options.apply (o : Options) (s : Settings) : Settings :=
  { s with server := { s.server with
      host := o.host.getD s.server.host
      tcpPort := o.tcpPort.getD s.server.tcpPort } }

def usageReport : Report := ⟨2, [], ["invalid command line; try --help"]⟩

def Refusal.report (lookup : String → Option String) : Refusal → Report
  | .help about => ⟨0, Help.text lookup about, []⟩
  | .version => ⟨0, [Help.version], []⟩
  | _ => usageReport

/-- The program has stopped without an answer. -/
def crashed : Report := ⟨101, [], []⟩

def runAlone {α : Type} (p : Plan α) : Option α := (p.run ⟨Table.empty, {}, []⟩).1

def issueLogin (keys : KeyService) (now : Instant) (identity : String) : Report :=
  let request : Key := ⟨"", .login, "", "", KeyService.issueTime now, none⟩
  match runAlone (keys.issue now identity request) with
  | none => crashed
  | some (.ok key) =>
    let expiry := key.expiresAt.map fun t => "expires at " ++ Rfc3339.renderWithOffset t
    ⟨0, [key.secret], expiry.toList⟩
  | some (.error e) => ⟨1, [], ["Failed to issue login key: " ++ e.message]⟩

def tellIdentity (keys : KeyService) (now : Instant) (token : String) : Report :=
  match runAlone (keys.identify now token) with
  | none => crashed
  | some (.ok identity) => ⟨0, [identity], []⟩
  | some (.error e) => ⟨1, [], [e.message]⟩

/-- A failure that is only logged. -/
def silentFailure : Report := ⟨1, [], []⟩

def withKeys (s : Settings) (source : SecretSource) (run : KeyService → Report) : Outcome :=
  match KeyService.ofSettings s.auth source with
  | .ok keys => .finished (run keys)
  | .error _ => .finished silentFailure

/-- Carries a command out. Without one the gateway is to serve. -/
def Command.run (s : Settings) (source : SecretSource) (now : Instant) (ask : Observe.Transport) :
    Option Command → Outcome
  | some (.login identity) => withKeys s source fun keys => issueLogin keys now identity
  | some (.identify token) => withKeys s source fun keys => tellIdentity keys now token
  | _ =>
    match Gateway.ofSettings s source ask with
    | .ok (gateway, _) => .serving gateway s.server
    | .error _ => .finished silentFailure

/-- The files that a run of the program looks for, as far as they can be told from the files that
are known. -/
def wantedFiles (w : Config.Surroundings) (words : List String) : List String :=
  match Options.read w.secrets.lookup words with
  | .error _ => []
  | .ok o =>
    match Config.extract w o.config with
    | .ok s => o.config.toList ++ s.envFiles.map w.expand
    | .error _ => o.config.toList

def run (w : Config.Surroundings) (now : Instant) (ask : Observe.Transport) (words : List String) :
    Outcome :=
  let lookup := w.secrets.lookup
  match Options.read lookup words with
  | .error refusal => .finished (refusal.report lookup)
  | .ok o =>
    match Config.load w o.config with
    | .error .crashed => .finished crashed
    | .error _ => .finished silentFailure
    | .ok (s, w) => Command.run (o.apply s) w.secrets now ask o.command

end Gatehouse.CommandLine
