import Gatehouse.CommandLine.Options

/-!
The help text: what commands and options there are, in lines of limited width.
-/

namespace Gatehouse.CommandLine.Help

def width : Nat := 100

def programName : String := "devicegate"

def version : String := programName ++ " 0.3.0"

/-- Adds a word to lines, the last of these first. -/
def addWord (room : Nat) (lines : List String) (word : String) : List String :=
  match lines with
  | [] => [word]
  | line :: done =>
    if line.length + 1 + word.length ≤ room then (line ++ " " ++ word) :: done
    else word :: line :: done

def wrap (room : Nat) (text : String) : List String :=
  ((Text.splitOn ' ' text.toList).map String.ofList).foldl (addWord room) [] |>.reverse

def blanks (n : Nat) : String := String.ofList (List.replicate n ' ')

/-- Rows of a name and a text each; the texts stand in one column. -/
def rows (entries : List (String × String)) : List String :=
  let column := (entries.map fun e => e.1.length).foldl max 0 + 4
  entries.flatMap fun (name, text) =>
    match wrap (width - column) text with
    | [] => ["  " ++ name]
    | line :: lines =>
      ("  " ++ name ++ blanks (column - 2 - name.length) ++ line) ::
        lines.map fun line => blanks column ++ line

def titled (title : String) (entries : List (String × String)) : List String :=
  if entries.isEmpty then [] else ["", title ++ ":"] ++ rows entries

def purpose : CommandName → String
  | .serve => "Start the key service server (default)"
  | .login => "Issue a login key for an identity that has passed primary authentication. " ++
      "Needs a fixed `auth.secret` to be useful to a server"
  | .identify => "Resolve a login or reset key to its identity"
  | .help => "Print this message or the help of the given subcommand(s)"

def commands : List (String × String) :=
  CommandName.all.map fun (s, name) => (s, purpose name)

def slotPurpose : Slot → String
  | .config => "Path to configuration file (YAML)"
  | .tcpPort => "Port to listen on"
  | .host => "Host to bind to"
  | .logLevel => "Log level (trace, debug, info, warn, error)"
  | .logFormat => "Log format (text, json)"

def valueWord (slot : Slot) : String :=
  String.ofList (slot.long.toList.map fun c => if c = '-' then '_' else c.toUpper)

def slotRow (lookup : String → Option String) (slot : Slot) : String × String :=
  let letter := match slot.short? with
    | some c => "-" ++ String.ofList [c] ++ ", "
    | none => "    "
  let fallback := if slot = .logLevel then " [default: info]" else ""
  (letter ++ "--" ++ slot.long ++ " <" ++ valueWord slot ++ ">",
    slotPurpose slot ++ " [env: " ++ slot.variableName ++ "=" ++
      (lookup slot.variableName).getD "" ++ "]" ++ fallback)

def options (lookup : String → Option String) (l : Level) : List (String × String) :=
  l.slots.map (slotRow lookup) ++ [("-h, --help", "Print help")] ++
    (if l = .top then [("-V, --version", "Print version")] else [])

def general (lookup : String → Option String) : List String :=
  wrap width "Key/token service and CoAP observer core for an IoT messaging platform" ++
    ["", "Usage: " ++ programName ++ " [OPTIONS] [COMMAND]"] ++
    titled "Commands" commands ++ titled "Options" (options lookup .top)

def arguments : CommandName → List (String × String)
  | .login => [("<IDENTITY>", "Identity (e.g. an email address)")]
  | .identify => [("<TOKEN>", "The token to check")]
  | _ => []

def ofCommand (lookup : String → Option String) (name : CommandName) : List String :=
  let word := ((CommandName.all.find? fun e => e.2 == name).map Prod.fst).getD ""
  let usage := "Usage: " ++ programName ++ " " ++ word
  let about := wrap width (purpose name) ++ [""]
  match name with
  | .help => about ++ [usage ++ " [COMMAND]"] ++ titled "Commands" commands
  | _ =>
    about ++ [" ".intercalate ([usage, "[OPTIONS]"] ++ (arguments name).map Prod.fst)] ++
      titled "Arguments" (arguments name) ++ titled "Options" (options lookup (.sub name))

def text (lookup : String → Option String) : Option CommandName → List String
  | none => general lookup
  | some name => ofCommand lookup name

end Gatehouse.CommandLine.Help
