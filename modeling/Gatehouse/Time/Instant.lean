import Gatehouse.Time.Calendar

/-!
Instants to the nanosecond, and spans of time.

An instant counts seconds from the start of 1970 in UTC, floored, and nanoseconds within the second.
A leap second is the last second of a minute gone on: nanoseconds from 10⁹ to below 2·10⁹.
-/

namespace Gatehouse

structure Instant where
  seconds : Int
  nanos : Nat
  nanos_lt : nanos < 2000000000 := by decide
  deriving DecidableEq, Repr

namespace Instant

/-- Earlier first: by second, then within the second. -/
protected def le (a b : Instant) : Prop :=
  a.seconds < b.seconds ∨ (a.seconds = b.seconds ∧ a.nanos ≤ b.nanos)

instance : LE Instant := ⟨Instant.le⟩

instance : LT Instant := ⟨fun a b => a ≤ b ∧ ¬ b ≤ a⟩

instance (a b : Instant) : Decidable (a ≤ b) :=
  inferInstanceAs (Decidable (_ ∨ (_ ∧ _)))

instance (a b : Instant) : Decidable (a < b) := inferInstanceAs (Decidable (_ ∧ ¬ _))

theorem le_def (a b : Instant) :
    a ≤ b ↔ a.seconds < b.seconds ∨ (a.seconds = b.seconds ∧ a.nanos ≤ b.nanos) := Iff.rfl

/-- Nanoseconds may be given beyond the second; what is over a leap second is cut off. -/
def ofParts (seconds : Int) (nanos : Nat) : Instant :=
  ⟨seconds, min nanos 1999999999, by omega⟩

/-- The first and the last second of the calendar. -/
def firstSecond : Int := Date.toDays ⟨Date.firstYear, 1, 1⟩ * 86400

@[inherit_doc firstSecond]
def lastSecond : Int := Date.toDays ⟨Date.lastYear, 12, 31⟩ * 86400 + 86399

def InCalendar (t : Instant) : Prop := firstSecond ≤ t.seconds ∧ t.seconds ≤ lastSecond

instance (t : Instant) : Decidable t.InCalendar := inferInstanceAs (Decidable (_ ∧ _))

/-- The start of the second; a leap second starts where the second before it ends. -/
def floor (t : Instant) : Instant :=
  ⟨t.seconds, t.nanos / 1000000000 * 1000000000, by have := t.nanos_lt; omega⟩

end Instant

structure Span where
  seconds : Nat
  nanos : Nat
  deriving DecidableEq, Repr

namespace Span

def ofSeconds (n : Nat) : Span := ⟨n, 0⟩

def ofMillis (n : Nat) : Span := ⟨n / 1000, n % 1000 * 1000000⟩

def isZero (d : Span) : Bool := d.seconds = 0 ∧ d.nanos = 0

/-- The longest span that can be added to an instant: 2⁶³ - 1 milliseconds. -/
def longest : Span := ⟨9223372036854775, 807000000⟩

def IsAddable (d : Span) : Prop :=
  d.seconds < longest.seconds ∨ (d.seconds = longest.seconds ∧ d.nanos ≤ longest.nanos)

instance (d : Span) : Decidable d.IsAddable := inferInstanceAs (Decidable (_ ∨ (_ ∧ _)))

end Span

/-- The instant a span later, nothing past the end of the calendar. A leap second that is left
counts as the second it prolongs. -/
def Instant.add? (t : Instant) (d : Span) : Option Instant :=
  let stays := d.seconds = 0 ∧ t.nanos + d.nanos < 2000000000
  let later : Instant :=
    if 1000000000 ≤ t.nanos ∧ stays then ofParts t.seconds (t.nanos + d.nanos)
    else
      let n := t.nanos % 1000000000 + d.nanos
      ofParts (t.seconds + d.seconds + (n / 1000000000 : Nat)) (n % 1000000000)
  if later.InCalendar then some later else none

/-- The instant so many seconds later. The count has to fit into a signed number of 64 bits, and the
span has to be one that can be added, before the sum is looked at. -/
def Instant.addSeconds? (t : Instant) (n : Nat) : Option Instant :=
  if n ≤ 9223372036854775807 ∧ (Span.ofSeconds n).IsAddable then t.add? (.ofSeconds n) else none

end Gatehouse
