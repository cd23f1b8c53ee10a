/-!
URL-safe base64 without padding. Reading is strict: only the 64 characters, no length that leaves
one character over, and no set bits after the last byte, so every text stands for other bytes.
-/

namespace Gatehouse.Text.Base64

def symbol (n : Nat) : Char :=
  if n < 26 then Char.ofNat (n + 65)
  else if n < 52 then Char.ofNat (n + 71)
  else if n < 62 then Char.ofNat (n - 4)
  else if n = 62 then '-'
  else '_'

def value? (c : Char) : Option Nat :=
  if 'A' ≤ c ∧ c ≤ 'Z' then some (c.toNat - 65)
  else if 'a' ≤ c ∧ c ≤ 'z' then some (c.toNat - 71)
  else if '0' ≤ c ∧ c ≤ '9' then some (c.toNat + 4)
  else if c = '-' then some 62
  else if c = '_' then some 63
  else none

/-- Three bytes become four characters; one or two at the end become two or three. -/
def encode : List UInt8 → List Char
  | [] => []
  | [a] =>
    let n := a.toNat * 16
    [symbol (n / 64), symbol (n % 64)]
  | [a, b] =>
    let n := (a.toNat * 256 + b.toNat) * 4
    [symbol (n / 4096), symbol (n / 64 % 64), symbol (n % 64)]
  | a :: b :: c :: rest =>
    let n := (a.toNat * 256 + b.toNat) * 256 + c.toNat
    symbol (n / 262144) :: symbol (n / 4096 % 64) :: symbol (n / 64 % 64) :: symbol (n % 64) ::
      encode rest

/-- The bytes that `encode` writes as the given values. -/
def decodeValues : List Nat → Option (List UInt8)
  | [] => some []
  | [_] => none
  | [a, b] =>
    if b % 16 = 0 then some [UInt8.ofNat ((a * 64 + b) / 16)] else none
  | [a, b, c] =>
    let n := (a * 64 + b) * 64 + c
    if c % 4 = 0 then some [UInt8.ofNat (n / 1024), UInt8.ofNat (n / 4 % 256)] else none
  | a :: b :: c :: d :: rest =>
    let n := ((a * 64 + b) * 64 + c) * 64 + d
    (decodeValues rest).map fun bytes =>
      UInt8.ofNat (n / 65536) :: UInt8.ofNat (n / 256 % 256) :: UInt8.ofNat (n % 256) :: bytes

/-- The bytes that a text stands for, if it is one that `encode` writes. -/
def decode (cs : List Char) : Option (List UInt8) := do
  decodeValues (← cs.mapM value?)

example : encode [1, 2, 3, 250] = "AQID-g".toList := by decide

end Gatehouse.Text.Base64
