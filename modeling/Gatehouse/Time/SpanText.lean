import Gatehouse.Time.Instant
import Gatehouse.Text.Blank
import Gatehouse.Text.Decimal

/-!
Spans as people write them in settings: `100ms`, `30s`, `5m`, `10h`, or a bare number of seconds.
-/

namespace Gatehouse.Span

open Text

inductive Fault where
  | number (fault : NumberFault)
  /-- The seconds do not fit in a word, and the program stops. -/
  | overflow
  deriving DecidableEq, Repr

/-- The units and the span that a count of each stands for. -/
def units : List (List Char × (Nat → Span)) := [
  (['m', 's'], ofMillis),
  (['s'], ofSeconds),
  (['m'], fun n => ofSeconds (n * 60)),
  (['h'], fun n => ofSeconds (n * 3600))]

/-- So many of a unit. The count and its seconds are words of 64 bits, and it is only for the count
that this is looked at. -/
def readCount (span : Nat → Span) (count : List Char) : Except Fault Span :=
  match readNat max64 count with
  | .error fault => .error (.number fault)
  | .ok n => if (span n).seconds ≤ max64 then .ok (span n) else .error .overflow

/-- The first unit in the list that the text ends in decides; without any, seconds are meant. -/
def readWith : List (List Char × (Nat → Span)) → List Char → Except Fault Span
  | [], cs => readCount ofSeconds cs
  | (unit, span) :: units, cs =>
    match before? unit cs with
    | some count => readCount span count
    | none => readWith units cs

/-- The span that a text stands for, exactly as it is written. -/
def readExact (cs : List Char) : Except Fault Span := readWith units cs

/-- The span that a text stands for, blanks at its ends left out. -/
def read (s : String) : Except Fault Span := readExact (trim s.toList)

def render (d : Span) : String := String.ofList (natDigits d.seconds ++ ['s'])

end Gatehouse.Span
