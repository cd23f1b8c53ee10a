import Gatehouse.Time.Instant
import Gatehouse.Text.Blank
import Gatehouse.Text.Decimal

/-!
Instants as text: `2024-06-01T00:00:00.500Z`.

Writing uses UTC, the shortest of no, three, six or nine digits of fraction, four digits for the
years 0 to 9999 and a sign for all others. Reading is more generous: numbers may lack leading
zeros, blanks may stand before numbers and separators, any offset from UTC is allowed, and digits
of the fraction after the ninth are ignored.
-/

namespace Gatehouse.Rfc3339

open Text

/-! ## Writing -/

def writeYear (year : Int) : List Char :=
  if 0 ≤ year ∧ year ≤ 9999 then padNat 4 year.toNat
  else (if year < 0 then '-' else '+') :: padNat 4 year.natAbs

def writeFraction (nanos : Nat) : List Char :=
  if nanos = 0 then []
  else if nanos % 1000000 = 0 then '.' :: padNat 3 (nanos / 1000000)
  else if nanos % 1000 = 0 then '.' :: padNat 6 (nanos / 1000)
  else '.' :: padNat 9 nanos

/-- Date and time of an instant in UTC. A leap second is second 60. -/
def writeDateTime (t : Instant) : List Char :=
  let date := Date.ofDays (t.seconds / 86400)
  let rest := (t.seconds % 86400).toNat
  let leap := 1000000000 ≤ t.nanos
  let second := rest % 60 + (if leap then 1 else 0)
  let nanos := if leap then t.nanos - 1000000000 else t.nanos
  writeYear date.year ++ '-' :: padNat 2 date.month ++ '-' :: padNat 2 date.day ++
    'T' :: padNat 2 (rest / 3600) ++ ':' :: padNat 2 (rest / 60 % 60) ++ ':' :: padNat 2 second ++
    writeFraction nanos

def write (t : Instant) : List Char := writeDateTime t ++ ['Z']

def render (t : Instant) : String := String.ofList (write t)

/-- The text of an instant, UTC written as an offset of zero. -/
def renderWithOffset (t : Instant) : String := String.ofList (writeDateTime t ++ "+00:00".toList)

/-! ## Reading -/

def skipBlank (cs : List Char) : List Char := cs.dropWhile isBlank

/-- At least one and at most `width` digits. -/
def digits? (width : Nat) (cs : List Char) : Option (Nat × List Char) :=
  let ds := (cs.take width).takeWhile Char.isDigit
  match readDigits 9223372036854775807 0 ds with
  | .ok n => if ds.isEmpty then none else some (n, cs.drop ds.length)
  | .error _ => none

/-- A number of at most `width` digits between two bounds, blanks in front allowed. -/
def number? (width low high : Nat) (cs : List Char) : Option (Nat × List Char) := do
  let (n, rest) ← digits? width (skipBlank cs)
  if low ≤ n ∧ n ≤ high then some (n, rest) else none

/-- A year: up to four digits, or any number of them after a sign. -/
def year? (cs : List Char) : Option (Int × List Char) :=
  match skipBlank cs with
  | '-' :: cs => (digits? cs.length cs).map fun (n, rest) => (-(n : Int), rest)
  | '+' :: cs => (digits? cs.length cs).map fun (n, rest) => ((n : Int), rest)
  | cs => (digits? 4 cs).map fun (n, rest) => ((n : Int), rest)

/-- A given character, blanks in front allowed. -/
def mark? (c : Char) (cs : List Char) : Option (List Char) :=
  after? [c] (skipBlank cs)

def fraction? (cs : List Char) : Option (Nat × List Char) :=
  match cs with
  | '.' :: cs => do
    let (n, rest) ← digits? 9 cs
    let width := cs.length - rest.length
    some (n * Nat.pow 10 (9 - width), rest.dropWhile Char.isDigit)
  | cs => some (0, cs)

/-- The offset from UTC in seconds. Between hours and minutes any colons and blanks may stand. -/
def offset? (cs : List Char) : Option (Int × List Char) :=
  match cs with
  | 'Z' :: rest => some (0, rest)
  | 'z' :: rest => some (0, rest)
  | sign :: h1 :: h2 :: rest => do
    let sign : Int ←
      if sign = '+' then some 1 else if sign = '-' ∨ sign = '\u2212' then some (-1) else none
    let h1 ← digit? h1
    let h2 ← digit? h2
    match rest.dropWhile fun c => c == ':' || isBlank c with
    | m1 :: m2 :: rest =>
      let m1 ← digit? m1
      let m2 ← digit? m2
      if m1 < 6 then some (sign * ((h1 * 10 + h2) * 3600 + (m1 * 10 + m2) * 60 : Nat), rest)
      else none
    | _ => none
  | _ => none

/-- The offset written as the word `UTC` in letters of either case, or as a number. -/
def zone? (cs : List Char) : Option (Int × List Char) :=
  if (cs.take 3).map Char.toUpper = ['U', 'T', 'C'] then some (0, cs.drop 3) else offset? cs

/-- The instant that a text names, if it lies in the calendar both where its clock stood and in
UTC. Second 60 is the leap second after second 59. -/
def read (cs : List Char) : Option Instant := do
  let (year, cs) ← year? cs
  let cs ← mark? '-' cs
  let (month, cs) ← number? 2 1 12 cs
  let cs ← mark? '-' cs
  let (day, cs) ← number? 2 1 31 cs
  let cs ← match cs with
    | c :: cs => if c = 'T' ∨ c = 't' ∨ c = ' ' then some cs else none
    | [] => none
  let (hour, cs) ← number? 2 0 23 cs
  let cs ← mark? ':' cs
  let (minute, cs) ← number? 2 0 59 cs
  let cs ← mark? ':' cs
  let (second, cs) ← number? 2 0 60 cs
  let (nanos, cs) ← fraction? cs
  let (offset, cs) ← zone? (skipBlank cs)
  let date : Date := ⟨year, month, day⟩
  let local_ := date.toDays * 86400 + ((hour * 60 + minute) * 60 + min second 59 : Nat)
  let t := Instant.ofParts (local_ - offset) (if second = 60 then nanos + 1000000000 else nanos)
  if date.IsValid ∧ offset.natAbs < 86400 ∧ t.InCalendar ∧ (skipBlank cs).isEmpty then some t
  else none

def read? (s : String) : Option Instant := read s.toList

end Gatehouse.Rfc3339
