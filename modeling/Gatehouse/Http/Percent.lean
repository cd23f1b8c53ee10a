import Gatehouse.Text.Hex

/-!
Percent codes: bytes written as a percent sign and two hexadecimal digits.
-/

namespace Gatehouse.Http.Percent

def sign : UInt8 := 0x25

def pair? (a b : UInt8) : Option UInt8 := do
  let hi ← Text.Hex.value? (Char.ofNat a.toNat)
  let lo ← Text.Hex.value? (Char.ofNat b.toNat)
  return UInt8.ofNat (hi * 16 + lo)

/-- Reads percent codes. A percent sign that starts none stands for itself. -/
def decode : List UInt8 → List UInt8
  | [] => []
  | [a] => [a]
  | [a, b] => [a, b]
  | a :: b :: c :: rest =>
    match if a = sign then pair? b c else none with
    | some byte => byte :: decode rest
    | none => a :: decode (b :: c :: rest)

/-- The text whose bytes are percent-coded, if they are those of a text. -/
def decodeText? (s : String) : Option String :=
  String.fromUTF8? ⟨(decode s.toUTF8.toList).toArray⟩

def digit (n : Nat) : Char := if n < 10 then Char.ofNat (n + 48) else Char.ofNat (n + 55)

def code (b : UInt8) : List Char := ['%', digit (b.toNat / 16), digit (b.toNat % 16)]

/-- Writes the characters of a class as the codes of their bytes. -/
def encode (isCoded : Char → Bool) (cs : List Char) : List Char :=
  cs.flatMap fun c => if isCoded c then (String.utf8EncodeChar c).flatMap code else [c]

example : decode "a%2Fb%zz%".toUTF8.toList = "a/b%zz%".toUTF8.toList := by decide +kernel

end Gatehouse.Http.Percent
