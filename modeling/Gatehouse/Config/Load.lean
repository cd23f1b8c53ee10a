import Gatehouse.Config.EnvFile
import Gatehouse.Config.Settings
import Gatehouse.Config.Variables
import Gatehouse.Config.Yaml.Reader

/-!
Loading the settings: the file, then the variables over it, then the env files.

Variables from env files come too late to be settings; they serve secrets that name a variable.
-/

namespace Gatehouse.Config

structure Surroundings where
  /-- The text of the file at a path, if there is one. -/
  file : String → Option String
  env : EnvFile.Variables
  /-- The secret that stands for a random one. -/
  random : String

namespace Surroundings

def home? (s : Surroundings) : Option String := (s.env.lookup "HOME").filter (!·.isEmpty)

/-- A path with the home directory in the place of a tilde at its start. -/
def expand (s : Surroundings) (path : String) : String :=
  match Text.after? ['~'] path.toList, s.home? with
  | some rest, some home => home ++ String.ofList rest
  | _, _ => path

def withEnvFile (s : Surroundings) (path : String) : Surroundings :=
  match s.file (s.expand path) with
  | some text => { s with env := EnvFile.load s.env text }
  | none => s

def secrets (s : Surroundings) : SecretSource := ⟨fun name => s.env.lookup name, s.random⟩

end Surroundings

inductive LoadFault where
  | missing (path : String)
  /-- File or variables cannot be read as settings. -/
  | unreadable
  /-- The program stops while it reads them. -/
  | crashed
  /-- The settings make no sense. -/
  | invalid (cause : Failure)

/-- The failure that a caller sees, if the program goes on. -/
def LoadFault.toFailure? : LoadFault → Option Failure
  | missing path => some (.config ("Config file not found: " ++ path))
  | unreadable => some (.config "settings cannot be read")
  | crashed => none
  | invalid cause => some cause

/-- The settings in a file. A file without a document holds none. -/
def fileTree (text : String) : Except LoadFault Tree :=
  match Yaml.read? text with
  | some none => .ok (.table [])
  | some (some (.table members)) => .ok (.table members)
  | _ => .error .unreadable

/-- The settings in the file at a path, if one is named. -/
def baseTree (s : Surroundings) : Option String → Except LoadFault Tree
  | none => .ok (.table [])
  | some path =>
    match s.file path with
    | none => .error (.missing path)
    | some text => fileTree text

def extract (s : Surroundings) (path : Option String) : Except LoadFault Settings := do
  let base ← baseTree s path
  match Settings.read ((Variables.tree s.env).overlay base).node with
  | .ok settings => .ok settings
  | .error .overflow => .error .crashed
  | .error _ => .error .unreadable

/-- Loads the settings, and gives the surroundings after the env files. -/
def load (s : Surroundings) (path : Option String) :
    Except LoadFault (Settings × Surroundings) := do
  let settings ← extract s path
  let after := settings.envFiles.foldl Surroundings.withEnvFile s
  match settings.validate with
  | .ok () => return (settings, after)
  | .error e => .error (.invalid e)

end Gatehouse.Config
