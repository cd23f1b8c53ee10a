import Gatehouse.Config.Tree
import Gatehouse.Text.Numeral

/-!
What a YAML scalar without quotes means: nothing, a truth value, a number or a text.
-/

namespace Gatehouse.Config.Yaml

open Text

/-- The text is longer than a digit and has a zero in front; such a row of digits is no number. -/
def hasLeadingZero (cs : List Char) : Bool :=
  match (splitSign cs).2 with
  | '0' :: c :: rest => isDigits (c :: rest)
  | _ => false

/-- The number in a base other than ten that a text names after its sign. -/
def based? : List Char → Option Nat
  | '0' :: 'x' :: cs => natIn? 16 cs
  | '0' :: 'o' :: cs => natIn? 8 cs
  | '0' :: 'b' :: cs => natIn? 2 cs
  | _ => none

def integer? (cs : List Char) : Option Int :=
  let (negative, digits) := splitSign cs
  let signed (n : Nat) : Int := if negative then -(n : Int) else n
  match based? digits with
  | some n => some (signed n)
  | none => if hasLeadingZero cs then none else (natIn? 10 digits).map signed

/-- The scalar stands for another number. -/
def isReal (cs : List Char) : Bool :=
  let special := [".inf", ".Inf", ".INF"].map String.toList
  special.contains (splitSign cs).2 || [".nan", ".NaN", ".NAN"].contains (String.ofList cs) ||
    (!hasLeadingZero cs && isDecimal cs)

def plainValue (cs : List Char) : Tree :=
  let s := String.ofList cs
  if ["", "~", "null", "Null", "NULL"].contains s then .null
  else if ["true", "True", "TRUE"].contains s then .bool true
  else if ["false", "False", "FALSE"].contains s then .bool false
  else
    match integer? cs with
    | some n => .integer n
    | none => if isReal cs then .real else .text s

end Gatehouse.Config.Yaml
