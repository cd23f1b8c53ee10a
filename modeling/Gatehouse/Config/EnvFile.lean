import Gatehouse.Text.Blank
import Gatehouse.Text.Word

/-!
Files that set environment variables, a line `NAME=value` each.

A value may be quoted in part, refer to variables set before it, and be followed by a comment. A
variable that has a value keeps it. At the first faulty line reading stops, and what was set before
stays set.
-/

namespace Gatehouse.Config.EnvFile

abbrev Variables := List (String × String)

/-! ## Lines

A line goes on while a quote is open, and while it ends in a gap. -/

/-- Where in a line the reader is. -/
inductive Place where
  | between
  | escape
  | single
  | singleEscape
  | double
  | doubleEscape
  | gap
  deriving DecidableEq, Repr

def Place.afterOpen (c : Char) : Place :=
  if c = '\\' then .escape else if c = '"' then .double else if c = '\'' then .single else .between

/-- The place after a character; nothing where a comment starts. -/
def Place.next (p : Place) (c : Char) : Option Place :=
  match p with
  | .gap => if c = '#' then none else some (afterOpen c)
  | .escape => some .between
  | .between => some (if Text.isBlank c && c != '\n' && c != '\r' then .gap else afterOpen c)
  | .double => some (if c = '\\' then .doubleEscape else if c = '"' then .between else .double)
  | .doubleEscape => some .double
  | .single => some (if c = '\\' then .singleEscape else if c = '\'' then .between else .single)
  | .singleEscape => some .single

inductive Scan where
  /-- The place at the end of the line. -/
  | ended (place : Place)
  /-- A comment starts after so many characters. -/
  | comment (offset : Nat)

def scan : Nat → Place → List Char → Scan
  | _, p, [] => .ended p
  | n, p, c :: cs =>
    match p.next c with
    | some p => scan (n + 1) p cs
    | none => .comment n

/-- The text cut after each line end. -/
def physicalLines : List Char → List (List Char)
  | [] => []
  | c :: cs =>
    if c = '\n' then [c] :: physicalLines cs
    else
      match physicalLines cs with
      | [] => [[c]]
      | line :: lines => (c :: line) :: lines

def withoutBreak (cs : List Char) : List Char :=
  let cs' := (Text.before? ['\n'] cs).getD cs
  if cs'.length < cs.length then (Text.before? ['\r'] cs').getD cs' else cs

def isCommentLine (cs : List Char) : Bool := (cs.dropWhile Text.isBlank).head? == some '#'

/-- The lines of a text, each with what it goes on with; `none` where the text ends in the middle of
one. -/
def logicalLines : Place → List Char → List (List Char) → List (Option (List Char))
  | p, _, [] => if p = .between then [] else [none]
  | p, before, line :: lines =>
    let whole := before ++ line
    if isCommentLine whole then some [] :: logicalLines .between [] lines
    else
      match scan 0 p line with
      | .comment n => some (before ++ line.take n) :: logicalLines .between [] lines
      | .ended .between => some (withoutBreak whole) :: logicalLines .between [] lines
      | .ended p => logicalLines p whole lines

/-! ## Values -/

inductive Reference where
  /-- After the sign: letters and digits. -/
  | bare (name : List Char)
  /-- In braces. -/
  | braced (name : List Char)

structure Draft where
  /-- What has been read, last character first. -/
  done : List Char := []
  single : Bool := false
  double : Bool := false
  escaped : Bool := false
  /-- Only a comment may follow. -/
  closing : Bool := false
  reference : Option Reference := none

def valueOf (env : Variables) (name : List Char) : List Char :=
  ((env.lookup (String.ofList name)).getD "").toList

def Draft.push (d : Draft) (c : Char) : Draft := { d with done := c :: d.done }

def Draft.replace (d : Draft) (value : List Char) : Draft :=
  { d with done := value.reverse ++ d.done, reference := none }

/-- A character outside of single quotes, references and escapes. -/
def Draft.plain (d : Draft) (c : Char) : Draft :=
  if c = '$' then { d with reference := some (.bare []) }
  else if d.double then
    if c = '"' then { d with double := false }
    else if c = '\\' then { d with escaped := true }
    else d.push c
  else if c = '\'' then { d with single := true }
  else if c = '"' then { d with double := true }
  else if c = '\\' then { d with escaped := true }
  else if c = ' ' ∨ c = '\t' then { d with closing := true }
  else d.push c

/-- A character of a name in a reference without braces: a letter or digit of any script. -/
def isNameChar (c : Char) : Bool := c != '_' && Text.isWord c

/-- Takes the characters of a value in; nothing if they are faulty. -/
def readValue (env : Variables) : Draft → List Char → Option Draft
  | d, [] => some d
  | d, c :: cs =>
    if d.closing then
      if c = ' ' ∨ c = '\t' then readValue env d cs
      else if c = '#' then some d
      else none
    else if d.escaped then
      let d := { d with escaped := false }
      if c = 'n' then readValue env (d.push '\n') cs
      else if ['\\', '\'', '"', '$', ' '].contains c then readValue env (d.push c) cs
      else none
    else if d.single then
      readValue env (if c = '\'' then { d with single := false } else d.push c) cs
    else
      match d.reference with
      | none => readValue env (d.plain c) cs
      | some (.bare name) =>
        if isNameChar c then
          readValue env { d with reference := some (.bare (name ++ [c])) } cs
        else if c = '\x7b' ∧ name = [] then
          readValue env { d with reference := some (.braced []) } cs
        else
          let d := d.replace (valueOf env name)
          readValue env
            (if c = '$' then { d with reference := some (.bare []) } else d.push c) cs
      | some (.braced name) =>
        if c = '\x7d' then readValue env (d.replace (valueOf env name)) cs
        else readValue env { d with reference := some (.braced (name ++ [c])) } cs

/-- The value that a text stands for. A quote or brace that stays open is a fault. -/
def value? (env : Variables) (cs : List Char) : Option (List Char) := do
  let d ← readValue env {} cs
  if d.single || d.double then none
  else
    match d.reference with
    | none => some d.done.reverse
    | some (.bare name) => some (d.replace (valueOf env name)).done.reverse
    | some (.braced _) => none

/-! ## Assignments -/

def skipBlanks (cs : List Char) : List Char := cs.dropWhile Text.isBlank

/-- A name and what follows it and the blanks after it. -/
def name? (cs : List Char) : Option (List Char × List Char) :=
  let isName := fun (c : Char) => c.isAlphanum || c == '_' || c == '.'
  match cs with
  | [] => none
  | c :: _ =>
    if c.isAlpha || c == '_' then some (cs.takeWhile isName, skipBlanks (cs.dropWhile isName))
    else none

/-- The name that a line sets, and the text of its value. `export` may stand in front. -/
def target? (cs : List Char) : Option (List Char × List Char) := do
  let (name, rest) ← name? cs
  match Text.after? ['='] rest with
  | some value => return (name, value)
  | none =>
    if name = "export".toList then
      let (name, rest) ← name? rest
      return (name, ← Text.after? ['='] rest)
    else none

/-- What a line sets, if anything; nothing at all if the line is faulty. -/
def assignment? (env : Variables) (line : List Char) : Option (Option (String × String)) := do
  let cs := skipBlanks (Text.trimEndWith Text.isBlank line)
  if cs.isEmpty || cs.head? == some '#' then return none
  else
    let (name, rest) ← target? cs
    let text := skipBlanks rest
    let value ←
      if text.isEmpty || text.head? == some '#' then some [] else value? env text
    return some (String.ofList name, String.ofList value)

def Variables.setNew (env : Variables) (name value : String) : Variables :=
  if (env.lookup name).isSome then env else env ++ [(name, value)]

/-- Carries lines out up to the first faulty one. -/
def carryOut : Variables → List (Option (List Char)) → Variables
  | env, [] => env
  | env, none :: _ => env
  | env, some line :: lines =>
    match assignment? env line with
    | none => env
    | some none => carryOut env lines
    | some (some (name, value)) => carryOut (env.setNew name value) lines

def load (env : Variables) (text : String) : Variables :=
  let cs := text.toList
  let cs := if cs.head? = some '\ufeff' then cs.drop 1 else cs
  carryOut env (logicalLines .between [] (physicalLines cs))

example : load [] "A=1 # one\nexport B=\"$A-2\"\nA=3\nC d" = [("A", "1"), ("B", "1-2")] := by
  decide +kernel

end Gatehouse.Config.EnvFile
