/-!
Whole numbers in decimal digits: writing, and reading with an upper limit.
-/

namespace Gatehouse.Text

inductive NumberFault where
  | empty
  | badDigit
  | tooLarge
  deriving DecidableEq, Repr

def NumberFault.message : NumberFault → String
  | .empty => "cannot parse integer from empty string"
  | .badDigit => "invalid digit found in string"
  | .tooLarge => "number too large to fit in target type"

def digit? (c : Char) : Option Nat :=
  if '0' ≤ c ∧ c ≤ '9' then some (c.toNat - 48) else none

/-- Reads digits after the value `acc`; the first fault from the left counts. -/
def readDigits (limit : Nat) : Nat → List Char → Except NumberFault Nat
  | acc, [] => .ok acc
  | acc, c :: cs =>
    match digit? c with
    | none => .error .badDigit
    | some d =>
      if limit < acc * 10 + d then .error .tooLarge else readDigits limit (acc * 10 + d) cs

/-- Reads an optional plus sign and at least one digit. -/
def readNat (limit : Nat) : List Char → Except NumberFault Nat
  | [] => .error .empty
  | '+' :: c :: cs => readDigits limit 0 (c :: cs)
  | cs => readDigits limit 0 cs

def natDigits (n : Nat) : List Char := Nat.toDigits 10 n

/-- A number in at least `width` digits, zeros in front. -/
def padNat (width n : Nat) : List Char :=
  let ds := natDigits n
  List.replicate (width - ds.length) '0' ++ ds

/-- The largest number of 16, 32 and 64 bits. -/
def max16 : Nat := 65535

@[inherit_doc max16]
def max32 : Nat := 4294967295

@[inherit_doc max16]
def max64 : Nat := 18446744073709551615

end Gatehouse.Text
