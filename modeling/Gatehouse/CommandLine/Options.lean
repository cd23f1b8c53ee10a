import Gatehouse.Text.Numeral
import Gatehouse.Text.Split

/-!
Options: what the command line asks for.

Words are taken in order. An option's value that stands in a word of its own is checked only when
something comes after it that is not at fault itself; so of several faults it may be a later one
that is reported. Some options may stand before the command as well as after it, and then the later
one counts. What the command line leaves open, environment variables may say.
-/

namespace Gatehouse.CommandLine

inductive Command where
  | serve
  | login (identity : String)
  | identify (token : String)
  deriving DecidableEq, Repr

structure Options where
  config : Option String
  tcpPort : Option Nat
  host : Option String
  logLevel : String
  logFormat : Option String
  command : Option Command
  deriving DecidableEq, Repr

inductive CommandName where
  | serve
  | login
  | identify
  | help
  deriving DecidableEq, Repr

def CommandName.all : List (String × CommandName) :=
  [("serve", serve), ("login", login), ("identify", identify), ("help", help)]

def CommandName.ofString? (s : String) : Option CommandName := all.lookup s

/-- Why there are no options: help is wanted, or the command line is at fault. -/
inductive Refusal where
  /-- Help is wanted, on a command or on all. -/
  | help (about : Option CommandName)
  | version
  /-- An option stands without its value. -/
  | valueMissing
  | valueInvalid
  /-- A flag has a value. -/
  | valueUnneeded
  /-- An option comes twice. -/
  | repeated
  | unknownArgument
  | unknownCommand
  /-- A command stands without what it is about. -/
  | argumentMissing
  deriving DecidableEq, Repr

/-! ## Words -/

inductive Slot where
  | config
  | tcpPort
  | host
  | logLevel
  | logFormat
  deriving DecidableEq, Repr

namespace Slot

def all : List Slot := [config, tcpPort, host, logLevel, logFormat]

def long : Slot → String
  | config => "config"
  | tcpPort => "port"
  | host => "host"
  | logLevel => "log-level"
  | logFormat => "log-format"

def short? : Slot → Option Char
  | config => some 'c'
  | tcpPort => some 'p'
  | _ => none

/-- The variable that says what the command line leaves open. -/
def variableName : Slot → String
  | config => "DEVICEGATE_CONFIG"
  | tcpPort => "DEVICEGATE_PORT"
  | host => "DEVICEGATE_HOST"
  | logLevel => "DEVICEGATE_LOG_LEVEL"
  | logFormat => "DEVICEGATE_LOG_FORMAT"

/-- The option may stand after a command. -/
def isGlobal : Slot → Bool
  | tcpPort => false
  | host => false
  | _ => true

end Slot

def tcpPort? (value : String) : Option Nat :=
  match Text.int? value.toList with
  | some n => if 0 ≤ n ∧ n ≤ (Text.max16 : Int) then some n.toNat else none
  | none => none

/-- Checks a value. The path of a file must not be empty. -/
def Slot.check (slot : Slot) (value : String) : Except Refusal Unit :=
  match slot with
  | .config => if value.isEmpty then .error .valueMissing else .ok ()
  | .tcpPort => if (tcpPort? value).isSome then .ok () else .error .valueInvalid
  | _ => .ok ()

inductive Meaning where
  | slot (slot : Slot)
  | help
  | version

/-- A place of the command line: before a command, or after one. -/
inductive Level where
  | top
  | sub (command : CommandName)
  deriving DecidableEq, Repr

/-- What help is on at a place. -/
def Level.topic? : Level → Option CommandName
  | top => none
  | sub name => some name

def Level.slots : Level → List Slot
  | top => Slot.all
  | sub _ => Slot.all.filter Slot.isGlobal

def Level.long? (l : Level) (name : String) : Option Meaning :=
  if name = "help" then some .help
  else if name = "version" ∧ l = .top then some .version
  else (l.slots.find? fun s => s.long == name).map .slot

def Level.short? (l : Level) (c : Char) : Option Meaning :=
  if c = 'h' then some .help
  else if c = 'V' ∧ l = .top then some .version
  else (l.slots.find? fun s => s.short? == some c).map .slot

inductive Word where
  /-- From here on words are no options. -/
  | escape
  | long (name : String) (value : Option String)
  | short (letter : Char) (rest : List Char)
  | plain

def Word.ofString (s : String) : Word :=
  match s.toList with
  | ['-', '-'] => escape
  | '-' :: '-' :: cs =>
    let isName := fun c => c != '='
    let value := cs.dropWhile isName
    long (String.ofList (cs.takeWhile isName))
      (if value.isEmpty then none else some (String.ofList (value.drop 1)))
  | '-' :: c :: cs => short c cs
  | _ => plain

/-! ## Reading a place -/

/-- An option that stands in a word of its own, and its value once that has come. -/
structure Pending where
  slot : Slot
  value : Option String

structure State where
  /-- Options with their values, checked. -/
  given : List (Slot × String) := []
  pending : Option Pending := none
  /-- Only arguments follow. -/
  escaped : Bool := false
  /-- What the command is about. -/
  argument : Option String := none

namespace State

def give (st : State) (slot : Slot) (value : Option String) : Except Refusal State :=
  match value with
  | none => .error .valueMissing
  | some v =>
    if (st.given.lookup slot).isSome then .error .repeated
    else do
      slot.check v
      return { st with given := st.given ++ [(slot, v)] }

def settle (st : State) : Except Refusal State :=
  match st.pending with
  | none => .ok st
  | some p => { st with pending := none }.give p.slot p.value

def isWaiting (st : State) : Bool := !st.escaped &&
  match st.pending with
  | some ⟨_, none⟩ => true
  | _ => false

def receive (st : State) (value : String) : State :=
  { st with pending := st.pending.map fun p => { p with value := some value } }

def option (st : State) (slot : Slot) (value : Option String) : Except Refusal State := do
  let st ← st.settle
  match value with
  | some v => st.give slot (some v)
  | none => return { st with pending := some ⟨slot, none⟩ }

/-- A flag ends the reading, unless something before it is at fault. -/
def flag (st : State) (answer : Refusal) : Except Refusal State := do
  let _ ← st.settle
  throw answer

def long (l : Level) (st : State) (meaning : Option Meaning) (value : Option String) :
    Except Refusal State :=
  match meaning, value with
  | none, _ => .error .unknownArgument
  | some (.slot slot), value => st.option slot value
  | some .help, none => st.flag (.help l.topic?)
  | some .version, none => st.flag .version
  | some _, some _ => .error .valueUnneeded

/-- An option of one letter. What follows the letter is the value, after an equals sign if there is
one. -/
def short (l : Level) (st : State) (meaning : Option Meaning) (rest : List Char) :
    Except Refusal State :=
  match meaning with
  | none => .error .unknownArgument
  | some .help => st.flag (.help l.topic?)
  | some .version => st.flag .version
  | some (.slot slot) =>
    st.option slot
      (if rest.isEmpty then none else some (String.ofList ((Text.after? ['='] rest).getD rest)))

/-- What a word that is neither option nor value leads to. -/
inductive Step where
  | next (st : State)
  /-- The word is an argument. -/
  | argument (st : State)

def word (l : Level) (st : State) (s : String) : Except Refusal Step :=
  if st.escaped then .ok (.argument st)
  else
    match Word.ofString s with
    | .escape => .ok (.next { st with escaped := true })
    | .long name value => (st.long l (l.long? name) value).map .next
    | .short c rest => (st.short l (l.short? c) rest).map .next
    | .plain => .ok (if st.isWaiting then .next (st.receive s) else .argument st)

/-- What the variables say is checked where the command line says nothing. -/
def checkVariables (l : Level) (lookup : String → Option String) (st : State) :
    Except Refusal Unit :=
  l.slots.forM fun slot =>
    match st.given.lookup slot, lookup slot.variableName with
    | none, some v => slot.check v
    | _, _ => .ok ()

def finish (l : Level) (lookup : String → Option String) (st : State) : Except Refusal State := do
  let st ← st.settle
  st.checkVariables l lookup
  return st

end State

/-! ## Commands -/

def readSub (name : CommandName) (needsArgument : Bool) :
    State → List String → Except Refusal State
  | st, [] => .ok st
  | st, s :: words => do
    match ← st.word (.sub name) s with
    | .next st => readSub name needsArgument st words
    | .argument st =>
      if needsArgument && st.argument.isNone then
        readSub name needsArgument { ← st.settle with argument := some s } words
      else throw .unknownArgument

/-- What comes after `help`: the name of a command, at most after another `help`. -/
def readHelp : List String → Refusal
  | [] => .help none
  | s :: words =>
    match CommandName.ofString? s, words with
    | none, _ => .unknownCommand
    | some name, [] => .help (some name)
    | some .help, [s] =>
      match CommandName.ofString? s with
      | some name => .help (some name)
      | none => .unknownCommand
    | some _, _ => .unknownCommand

def command (lookup : String → Option String) (name : CommandName) (words : List String) :
    Except Refusal (Command × State) := do
  let read (needsArgument : Bool) : Except Refusal State := do
    let st ← readSub name needsArgument {} words
    st.finish (.sub name) lookup
  let about (make : String → Command) : Except Refusal (Command × State) := do
    let st ← read true
    match st.argument with
    | some s => return (make s, st)
    | none => throw .argumentMissing
  match name with
  | .help => throw (readHelp words)
  | .serve => return (.serve, ← read false)
  | .login => about .login
  | .identify => about .identify

/-- Words up to the command, and the command. -/
def readTop (lookup : String → Option String) :
    State → List String → Except Refusal (State × Option (Command × State))
  | st, [] => .ok (st, none)
  | st, s :: words =>
    match if st.isWaiting || st.escaped then none else CommandName.ofString? s with
    | some name => do return (st, some (← command lookup name words))
    | none => do
      match ← st.word .top s with
      | .next st => readTop lookup st words
      | .argument st =>
        throw (if st.escaped && (CommandName.ofString? s).isSome then .unknownArgument
          else .unknownCommand)

/-- Reads a command line without the name of the program. -/
def Options.read (lookup : String → Option String) (words : List String) :
    Except Refusal Options := do
  let (top, command) ← readTop lookup {} words
  let top ← top.finish .top lookup
  let value (slot : Slot) : Option String :=
    (command.bind fun c => c.2.given.lookup slot) <|> top.given.lookup slot <|>
      lookup slot.variableName
  return {
    config := value .config
    tcpPort := (value .tcpPort).bind tcpPort?
    host := value .host
    logLevel := (value .logLevel).getD "info"
    logFormat := value .logFormat
    command := command.map Prod.fst }

end Gatehouse.CommandLine
