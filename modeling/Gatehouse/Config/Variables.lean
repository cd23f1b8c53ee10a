import Gatehouse.Config.Tree
import Gatehouse.Text.Blank
import Gatehouse.Text.Numeral

/-!
Settings in environment variables.

A variable `DEVICEGATE_SERVER__HOST` is the member `host` of the section `server`. The value may be
written as `true`, a number, a text in quotes, a list `[a, b]` or a table `{a = 1}`; whatever cannot
be read so is a text as it stands.
-/

namespace Gatehouse.Config.Variables

def isSpace (c : Char) : Bool := c == ' ' || c == '\t' || c == '\n' || c == '\x0c' || c == '\r'

def skipSpace (cs : List Char) : List Char := cs.dropWhile isSpace

def isSeparator (c : Char) : Bool := ",[]\x7b\x7d".toList.contains c

def isKeyChar (c : Char) : Bool := c.isAlphanum || c == '_' || c == '-'

/-- The words that are read as numbers though they have no digits. -/
def numberWords : List String := ["inf", "infinity", "nan"]

def simple (cs : List Char) : Tree :=
  let cs := Text.trim cs
  let s := String.ofList cs
  if s = "true" then .bool true
  else if s = "false" then .bool false
  else
    match Text.int? cs with
    | some n => .integer n
    | none =>
      let word := String.ofList ((Text.splitSign cs).2.map Char.toLower)
      if Text.isDecimal cs || numberWords.contains word then .real else .text s

def escape? (c : Char) : Option Char :=
  [('"', '"'), ('\\', '\\'), ('b', '\x08'), ('f', '\x0c'), ('n', '\n'), ('r', '\r'),
    ('t', '\t')].lookup c

def coded? (digits : List Char) (width : Nat) : Option Char := do
  let n ← Text.natIn? 16 digits
  if digits.length = width ∧ n.isValidChar then return Char.ofNat n else none

def isQuotable (c : Char) : Bool := c == '\t' || (0x20 ≤ c.toNat && c.toNat != 0x7F)

def quoted? : Nat → List Char → Option (List Char × List Char)
  | 0, _ => none
  | fuel + 1, cs =>
    match cs with
    | [] => none
    | '"' :: rest => some ([], rest)
    | '\\' :: c :: rest =>
      let width? : Option Nat := [('u', 4), ('U', 8)].lookup c
      match escape? c, width? with
      | some e, _ => (quoted? fuel rest).map fun (cs, rest) => (e :: cs, rest)
      | none, some width => do
        let e ← coded? (rest.take width) width
        (quoted? fuel (rest.drop width)).map fun (cs, rest) => (e :: cs, rest)
      | none, none => none
    | c :: rest =>
      if isQuotable c && c != '\\' then
        (quoted? fuel rest).map fun (cs, rest) => (c :: cs, rest)
      else none

def key? (cs : List Char) : Option (String × List Char) :=
  match skipSpace cs with
  | '"' :: rest =>
    (quoted? cs.length rest).map fun (key, rest) => (String.ofList key, skipSpace rest)
  | cs =>
    let key := cs.takeWhile isKeyChar
    if key.isEmpty then none else some (String.ofList key, skipSpace (cs.dropWhile isKeyChar))

mutual

/-- A value and what follows it. -/
def value? : Nat → List Char → Option (Tree × List Char)
  | 0, _ => none
  | fuel + 1, cs =>
    match skipSpace cs with
    | '\x7b' :: rest =>
      (members? fuel rest).map fun (ms, rest) => (.ofMembers ms, skipSpace rest)
    | '[' :: rest => (items? fuel rest).map fun (items, rest) => (.list items, skipSpace rest)
    | '"' :: rest =>
      (quoted? cs.length rest).map fun (s, rest) => (.text (String.ofList s), skipSpace rest)
    | '\'' :: rest =>
      match rest with
      | c :: '\'' :: rest => some (.text (String.ofList [c]), skipSpace rest)
      | _ => none
    | cs =>
      let isInner := fun c => !isSeparator c
      some (simple (cs.takeWhile isInner), cs.dropWhile isInner)

def items? : Nat → List Char → Option (List Tree × List Char)
  | 0, _ => none
  | fuel + 1, cs =>
    match cs with
    | ']' :: rest => some ([], rest)
    | cs => do
      let (item, rest) ← value? fuel cs
      match rest with
      | ',' :: rest => (items? fuel rest).map fun (items, rest) => (item :: items, rest)
      | ']' :: rest => some ([item], rest)
      | _ => none

def members? : Nat → List Char → Option (List (String × Tree) × List Char)
  | 0, _ => none
  | fuel + 1, cs =>
    match cs with
    | '\x7d' :: rest => some ([], rest)
    | cs => do
      let (key, rest) ← key? cs
      match rest with
      | '=' :: rest =>
        let (value, rest) ← value? fuel rest
        match rest with
        | ',' :: rest =>
          (members? fuel rest).map fun (members, rest) => ((key, value) :: members, rest)
        | '\x7d' :: rest => some ([(key, value)], rest)
        | _ => none
      | _ => none

end

def valueOf (s : String) : Tree :=
  match value? (2 * s.length + 2) s.toList with
  | some (t, []) => t
  | _ => .text s

/-! ## Names -/

/-- What the names of these variables start with, in either case. -/
def start : String := "DEVICEGATE_"

/-- Splits a name in lower case at double underscores, and at points. -/
def splitName : List Char → List (List Char)
  | [] => [[]]
  | '_' :: '_' :: cs => [] :: splitName cs
  | c :: cs =>
    if c = '.' then [] :: splitName cs
    else
      match splitName cs with
      | [] => [[c]]
      | piece :: pieces => (c :: piece) :: pieces

def path? (name : String) : Option (List String) := do
  let lower (cs : List Char) := cs.map Char.toLower
  let rest ← Text.after? (lower start.toList) (lower name.toList)
  let keys := splitName rest
  if keys.any List.isEmpty then none else return keys.map String.ofList

/-- The settings that variables hold, later ones put over earlier ones. -/
def tree (env : List (String × String)) : Tree :=
  env.foldl (fun t (name, value) =>
    match path? name with
    | some keys => (Tree.nest keys (valueOf value)).overlay t
    | none => t) (.table [])

end Gatehouse.Config.Variables
