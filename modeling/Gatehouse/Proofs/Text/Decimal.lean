import Gatehouse.Text.Decimal
import Mathlib.Data.Nat.Digits.Defs

/-!
Whole numbers in decimal digits, read up to a limit. A text is read exactly if it is a numeral, and
then as the number that its digits make; a number over the limit is refused, and told apart from a
text that is no numeral (`readNat_eq_ok_iff`, `readNat_of_numeral`).
-/

namespace Gatehouse.Text

/-- The text is the number in decimal digits, zeros in front or not, with a plus sign or without. -/
def IsNumeral (cs : List Char) (n : Nat) : Prop :=
  ∃ sign digits : List Char, cs = sign ++ digits ∧ (sign = [] ∨ sign = ['+']) ∧ digits ≠ [] ∧
    (∀ c ∈ digits, c.isDigit = true) ∧ Nat.ofDigitChars 10 digits 0 = n

/-! ## Digits -/

theorem digit?_eq (c : Char) : digit? c = if c.isDigit then some (c.toNat - 48) else none := by
  have hrange : ('0' ≤ c ∧ c ≤ '9') ↔ c.isDigit = true := by
    simp only [Char.isDigit, Bool.and_eq_true, decide_eq_true_eq]
    rfl
  rw [digit?]
  simp only [hrange]

/-- A number only grows with the digits behind it. -/
theorem le_ofDigitChars (digits : List Char) (acc : Nat) :
    acc ≤ Nat.ofDigitChars 10 digits acc := by
  induction digits generalizing acc with
  | nil => simp
  | cons c cs ih =>
    rw [Nat.ofDigitChars_cons]
    have hrest := ih (10 * acc + (c.toNat - '0'.toNat))
    omega

theorem readDigits_of_digits {limit acc : Nat} {digits : List Char}
    (hdigits : ∀ c ∈ digits, c.isDigit = true) (hacc : acc ≤ limit) :
    readDigits limit acc digits =
      if Nat.ofDigitChars 10 digits acc ≤ limit then .ok (Nat.ofDigitChars 10 digits acc)
      else .error .tooLarge := by
  induction digits generalizing acc with
  | nil => simp [readDigits, hacc]
  | cons c cs ih =>
    obtain ⟨hc, hcs⟩ := List.forall_mem_cons.mp hdigits
    have hvalue : acc * 10 + (c.toNat - 48) = 10 * acc + (c.toNat - '0'.toNat) := by
      rw [Nat.mul_comm]
      rfl
    rw [readDigits, digit?_eq, if_pos hc, Nat.ofDigitChars_cons, ← hvalue]
    dsimp only
    by_cases hlimit : limit < acc * 10 + (c.toNat - 48)
    · -- over the limit already, and the digits to come make it no smaller
      have hgrows := le_ofDigitChars cs (acc * 10 + (c.toNat - 48))
      rw [if_pos hlimit, if_neg (by omega)]
    · rw [if_neg hlimit, ih hcs (by omega)]

theorem isDigit_of_readDigits {limit acc n : Nat} {digits : List Char}
    (h : readDigits limit acc digits = .ok n) : ∀ c ∈ digits, c.isDigit = true := by
  induction digits generalizing acc with
  | nil => simp
  | cons c cs ih =>
    rw [readDigits, digit?_eq] at h
    by_cases hc : c.isDigit = true
    · rw [if_pos hc] at h
      dsimp only at h
      split at h
      · cases h
      · exact List.forall_mem_cons.mpr ⟨hc, ih h⟩
    · simp [hc] at h

/-! ## Numerals -/

/-- What is read as a number is a row of digits behind a plus sign or none. -/
theorem readNat_append {limit : Nat} {sign digits : List Char} (hsign : sign = [] ∨ sign = ['+'])
    (hne : digits ≠ []) (hdigits : ∀ c ∈ digits, c.isDigit = true) :
    readNat limit (sign ++ digits) = readDigits limit 0 digits := by
  obtain ⟨c, cs, rfl⟩ := List.exists_cons_of_ne_nil hne
  rcases hsign with rfl | rfl
  · have hplus : c ≠ '+' := by
      rintro rfl
      exact absurd (hdigits '+' List.mem_cons_self) (by decide)
    rw [List.nil_append]
    unfold readNat
    split
    · contradiction
    · next heq => exact absurd (List.cons.inj heq).1 hplus
    · rfl
  · rfl

theorem readNat_of_numeral {limit n : Nat} {cs : List Char} (h : IsNumeral cs n) :
    readNat limit cs = if n ≤ limit then .ok n else .error .tooLarge := by
  obtain ⟨sign, digits, rfl, hsign, hne, hdigits, rfl⟩ := h
  rw [readNat_append hsign hne hdigits, readDigits_of_digits hdigits (Nat.zero_le limit)]

theorem value_of_readDigits {limit n : Nat} {digits : List Char}
    (h : readDigits limit 0 digits = .ok n) :
    Nat.ofDigitChars 10 digits 0 = n ∧ n ≤ limit := by
  rw [readDigits_of_digits (isDigit_of_readDigits h) (Nat.zero_le limit)] at h
  split at h
  · next hle =>
    cases h
    exact ⟨rfl, hle⟩
  · cases h

/-- **Which texts are read as numbers.** -/
theorem readNat_eq_ok_iff {limit n : Nat} {cs : List Char} :
    readNat limit cs = .ok n ↔ IsNumeral cs n ∧ n ≤ limit := by
  constructor
  · intro h
    unfold readNat at h
    split at h
    · cases h
    · next c cs =>
      obtain ⟨hvalue, hle⟩ := value_of_readDigits h
      exact ⟨⟨['+'], c :: cs, rfl, .inr rfl, by simp, isDigit_of_readDigits h, hvalue⟩, hle⟩
    · next hne _ =>
      obtain ⟨hvalue, hle⟩ := value_of_readDigits h
      exact ⟨⟨[], cs, rfl, .inl rfl, hne, isDigit_of_readDigits h, hvalue⟩, hle⟩
  · rintro ⟨hnumeral, hle⟩
    rw [readNat_of_numeral hnumeral, if_pos hle]

/-- A text is one number only. -/
theorem IsNumeral.unique {cs : List Char} {n n' : Nat} (h : IsNumeral cs n)
    (h' : IsNumeral cs n') : n = n' := by
  have hread : readNat (max n n') cs = .ok n := readNat_eq_ok_iff.mpr ⟨h, Nat.le_max_left n n'⟩
  have hread' : readNat (max n n') cs = .ok n' :=
    readNat_eq_ok_iff.mpr ⟨h', Nat.le_max_right n n'⟩
  exact Except.ok.inj (hread.symm.trans hread')

/-- A numeral ends in a digit. -/
theorem IsNumeral.exists_concat {cs : List Char} {n : Nat} (h : IsNumeral cs n) :
    ∃ init c, cs = init ++ [c] ∧ c.isDigit = true := by
  obtain ⟨sign, digits, rfl, -, hne, hdigits, -⟩ := h
  obtain ⟨init, c, rfl⟩ := (List.eq_nil_or_concat digits).resolve_left hne
  exact ⟨sign ++ init, c, by simp, hdigits c (by simp)⟩

/-! ## Written numbers -/

theorem isDigit_of_mem_natDigits {n : Nat} : ∀ c ∈ natDigits n, c.isDigit = true := fun _ hc =>
  Nat.isDigit_of_mem_toDigits (by decide) (by decide) hc

theorem natDigits_ne_nil (n : Nat) : natDigits n ≠ [] := Nat.toDigits_ne_nil

theorem ofDigitChars_natDigits (n : Nat) : Nat.ofDigitChars 10 (natDigits n) 0 = n :=
  Nat.ofDigitChars_toDigits (by decide) (by decide)

theorem isNumeral_natDigits (n : Nat) : IsNumeral (natDigits n) n :=
  ⟨[], natDigits n, rfl, .inl rfl, natDigits_ne_nil n, isDigit_of_mem_natDigits,
    ofDigitChars_natDigits n⟩

/-! ## Digits behind zeros -/

theorem isDigit_of_mem_padNat {width n : Nat} : ∀ c ∈ padNat width n, c.isDigit = true := by
  intro c hc
  rcases List.mem_append.mp hc with hzero | hdigit
  · rw [List.eq_of_mem_replicate hzero]
    rfl
  · exact isDigit_of_mem_natDigits c hdigit

theorem padNat_ne_nil (width n : Nat) : padNat width n ≠ [] :=
  List.append_ne_nil_of_right_ne_nil _ (natDigits_ne_nil n)

theorem ofDigitChars_padNat (width n : Nat) : Nat.ofDigitChars 10 (padNat width n) 0 = n := by
  rw [padNat, Nat.ofDigitChars_append, Nat.ofDigitChars_replicate_zero, Nat.mul_zero]
  exact ofDigitChars_natDigits n

theorem length_padNat {width n : Nat} (hwidth : 0 < width) (h : n < 10 ^ width) :
    (padNat width n).length = width := by
  have hle : (natDigits n).length ≤ width :=
    (Nat.length_toDigits_le_iff (by decide) hwidth).mpr h
  rw [padNat, List.length_append, List.length_replicate]
  omega

/-- So many digits do not reach the next power of ten. -/
theorem ofDigitChars_lt {digits : List Char} (h : ∀ c ∈ digits, c.isDigit = true) :
    Nat.ofDigitChars 10 digits 0 < 10 ^ digits.length := by
  induction digits with
  | nil => simp
  | cons c cs ih =>
    obtain ⟨hc, hcs⟩ := List.forall_mem_cons.mp h
    have hdigit : c.toNat - '0'.toNat ≤ 9 := by
      have hrange : c.toNat ≤ 57 := (Char.isDigit_iff_toNat.mp hc).2
      show c.toNat - 48 ≤ 9
      omega
    have hrest := ih hcs
    rw [Nat.ofDigitChars_cons, Nat.mul_zero, Nat.zero_add, Nat.ofDigitChars_eq_ofDigitChars_zero,
      List.length_cons, Nat.pow_succ]
    calc 10 ^ cs.length * (c.toNat - '0'.toNat) + Nat.ofDigitChars 10 cs 0
        < 10 ^ cs.length * (c.toNat - '0'.toNat) + 10 ^ cs.length := Nat.add_lt_add_left hrest _
      _ = 10 ^ cs.length * (c.toNat - '0'.toNat + 1) := by rw [Nat.mul_succ]
      _ ≤ 10 ^ cs.length * 10 := Nat.mul_le_mul_left _ (by omega)

end Gatehouse.Text
