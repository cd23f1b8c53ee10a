import Gatehouse.Text.Split

/-!
Blank characters: those with the Unicode property White_Space.
-/

namespace Gatehouse.Text

/-- The character has the property White_Space. -/
def isBlank (c : Char) : Bool :=
  let n := c.toNat
  (9 ≤ n && n ≤ 13) || n == 0x20 || n == 0x85 || n == 0xA0 || n == 0x1680 ||
    (0x2000 ≤ n && n ≤ 0x200A) || n == 0x2028 || n == 0x2029 || n == 0x202F || n == 0x205F ||
    n == 0x3000

def trim (cs : List Char) : List Char := trimWith isBlank cs

theorem isBlank_of_isDigit {c : Char} (h : c.isDigit = true) : isBlank c = false := by
  have hrange := Char.isDigit_iff_toNat.mp h
  have h48 : 48 ≤ c.toNat := hrange.1
  have h57 : c.toNat ≤ 57 := hrange.2
  simp only [isBlank, Bool.or_eq_false_iff, Bool.and_eq_false_iff, decide_eq_false_iff_not,
    beq_eq_false_iff_ne]
  omega

/-- Nothing is trimmed from a text that neither starts nor ends with a blank. -/
theorem trim_eq_self {cs : List Char} (hfirst : ∀ c ∈ cs.head?, isBlank c = false)
    (hlast : ∀ c ∈ cs.getLast?, isBlank c = false) : trim cs = cs := by
  rw [trim, trimWith, dropWhile_eq_self hfirst, trimEndWith_eq_self hlast]

example : trim " \t5s\u00a0".toList = ['5', 's'] := by decide

end Gatehouse.Text
