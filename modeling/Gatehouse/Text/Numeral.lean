import Gatehouse.Text.Decimal

/-!
Numerals: what counts as a number in texts that mean different things.
-/

namespace Gatehouse.Text

def digitIn? (base : Nat) (c : Char) : Option Nat :=
  let v :=
    if 'a' ≤ c ∧ c ≤ 'f' then some (c.toNat - 87)
    else if 'A' ≤ c ∧ c ≤ 'F' then some (c.toNat - 55)
    else digit? c
  v.filter (· < base)

/-- The value of at least one digit in a base. -/
def natIn? (base : Nat) (cs : List Char) : Option Nat :=
  if cs.isEmpty then none
  else cs.foldlM (fun n c => (digitIn? base c).map (n * base + ·)) 0

/-- Sign and rest. A plus sign is one too. -/
def splitSign : List Char → Bool × List Char
  | '-' :: cs => (true, cs)
  | '+' :: cs => (false, cs)
  | cs => (false, cs)

def int? (cs : List Char) : Option Int :=
  let (negative, digits) := splitSign cs
  (natIn? 10 digits).map fun n => if negative then -(n : Int) else n

def isDigits (cs : List Char) : Bool := cs.all fun c => (digit? c).isSome

def isExponent : List Char → Bool
  | [] => true
  | c :: cs =>
    (c == 'e' || c == 'E') &&
      let digits := (splitSign cs).2
      !digits.isEmpty && isDigits digits

/-- The text is a number in digits, with at most one point and an exponent. -/
def isDecimal (cs : List Char) : Bool :=
  let cs := (splitSign cs).2
  let isDigit := fun c => (digit? c).isSome
  let whole := cs.takeWhile isDigit
  match cs.dropWhile isDigit with
  | '.' :: rest =>
    !(whole.isEmpty && (rest.takeWhile isDigit).isEmpty) && isExponent (rest.dropWhile isDigit)
  | rest => !whole.isEmpty && isExponent rest

example : isDecimal "-1.5e+3".toList = true := by decide

example : isDecimal ".".toList = false := by decide

end Gatehouse.Text
