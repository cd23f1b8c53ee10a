import Gatehouse.Text.Decimal

/-!
Numbers as they stand in a text, under a reader who keeps them as doubles.

The reader takes the digits into a word of 64 bits, counts those that are too many, and scales the
word by a power of ten. It gives up a number that is beyond all doubles: behind its last digit, or
already within the exponent if that takes more than 32 bits.
-/

namespace Gatehouse.Json

/-- Where a reader stands that has given up a value. -/
inductive Halt where
  | behind
  | within
  deriving DecidableEq, Repr

structure Numeral where
  whole : List Nat
  fraction : List Nat := []
  /-- Whether the exponent is negative, and its digits. -/
  exponent : Option (Bool × List Nat) := none

namespace Numeral

def ofNat (n : Nat) : Numeral where
  whole := (Text.natDigits n).map fun c => c.toNat - 48

/-- Takes digits into a number up to a limit, and counts the digits that are left. -/
def absorb (limit : Nat) : Nat → List Nat → Nat × Nat
  | n, [] => (n, 0)
  | n, d :: ds => if n * 10 + d ≤ limit then absorb limit (n * 10 + d) ds else (n, ds.length + 1)

/-- The digits as a word, and the power of ten that it is to be scaled by. -/
def scaled (n : Numeral) : Nat × Int :=
  let (word, cut) := absorb Text.max64 0 n.whole
  let (word, unused) := absorb Text.max64 word n.fraction
  (word, (cut : Int) - (n.fraction.length - unused : Nat))

/-- The double next to a whole number, the even one of two. -/
def nearestDouble (n : Nat) : Nat :=
  let gap := 1 <<< (n.log2 - 52)
  let below := n / gap
  if gap < 2 * (n % gap) ∨ (gap = 2 * (n % gap) ∧ below % 2 = 1) then (below + 1) * gap
  else below * gap

/-- The least number that is rounded to infinity. -/
def infinite : Nat := (1 <<< 1024) - (1 <<< 970)

/-- Word and power of ten, both as doubles, have a product that is a double. Powers are known up to
308, and a negative one does no harm. -/
def isFinite (word : Nat) (power : Int) : Bool :=
  word = 0 ||
    (power ≤ 308 && nearestDouble word * nearestDouble (Nat.pow 10 power.toNat) < infinite)

def halt? (n : Numeral) : Option Halt :=
  let (word, power) := n.scaled
  match n.exponent with
  | none => if isFinite word power then none else some .behind
  | some (negative, digits) =>
    match absorb 2147483647 0 digits with
    | (e, 0) =>
      if isFinite word (if negative then power - e else power + e) then none else some .behind
    | (_, left) =>
      if word = 0 || negative then none else if left = 1 then some .behind else some .within

example : (ofNat (Nat.pow 10 308)).halt? = none := by decide +kernel

example : (ofNat (Nat.pow 10 309)).halt? = some .behind := by decide +kernel

end Numeral
end Gatehouse.Json
