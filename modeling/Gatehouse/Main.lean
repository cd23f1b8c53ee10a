import Gatehouse.CommandLine.Program
import Gatehouse.Text.Base64
import Std.Time.DateTime.Timestamp

/-!
The program: takes clock, randomness, variables and files from outside, and prints what the run of
the command line comes to.
-/

namespace Gatehouse.Main

def readClock : IO Instant := do
  let t ← Std.Time.Timestamp.now
  return Instant.ofParts t.val.second.val t.val.nano.val.toNat

/-- A secret of 32 random bytes. -/
def randomSecret : IO String := do
  return String.ofList (Text.Base64.encode (← IO.getRandomBytes 32).toList)

def readVariables : IO (List (String × String)) := do
  let bytes ← IO.FS.readBinFile "/proc/self/environ"
  let entries := (String.fromUTF8? bytes).getD ""
  return (Text.splitOn '\x00' entries.toList).filterMap fun entry =>
    match entry.dropWhile (· != '=') with
    | _ :: value => some (String.ofList (entry.takeWhile (· != '=')), String.ofList value)
    | [] => none

def readText (path : String) : IO (Option String) := do
  try
    return some (← IO.FS.readFile path)
  catch _ =>
    return none

def readWanted (words : List String) (w : Config.Surroundings)
    (known : List (String × String)) : IO (List (String × String)) := do
  let mut known := known
  for path in CommandLine.wantedFiles { w with file := fun p => known.lookup p } words do
    if (known.lookup path).isNone then
      if let some text ← readText path then
        known := (path, text) :: known
  return known

/-- There is nothing here that could reach the things service. -/
def noTransport : Observe.Transport := fun _ => .error "no transport"

/-- What is printed when the gateway is to serve, which takes a listener that is not part of this
program. -/
def noListener (s : ServerSettings) : CommandLine.Report :=
  ⟨1, [], ["cannot listen at " ++ s.host ++ ":" ++ toString s.tcpPort]⟩

def run (words : List String) : IO UInt32 := do
  let w : Config.Surroundings := ⟨fun _ => none, ← readVariables, ← randomSecret⟩
  let known ← readWanted words w (← readWanted words w [])
  let report :=
    match CommandLine.run { w with file := fun p => known.lookup p } (← readClock) noTransport
      words with
    | .finished report => report
    | .serving _ server => noListener server
  for line in report.out do IO.println line
  for line in report.err do IO.eprintln line
  return UInt32.ofNat report.code

end Gatehouse.Main

def main (words : List String) : IO UInt32 := Gatehouse.Main.run words
