import Gatehouse.Http.Percent
import Gatehouse.Proofs.Text.Utf8

/-!
What percent codes are read as. A percent sign and two digits are a byte, anything else stands for
itself. Characters that can stand in no code may be coded without a change to what is read, whatever
codes and lonely percent signs are around them (`decode_encode`).
-/

namespace Gatehouse.Http

open Text (utf8)

namespace Percent

/-- The byte can be in no percent code. -/
def IsForeign (b : UInt8) : Prop := b ≠ sign ∧ Text.Hex.value? (Char.ofNat b.toNat) = none

theorem decode_cons_of_ne {a : UInt8} (h : a ≠ sign) (bs : List UInt8) :
    decode (a :: bs) = a :: decode bs := by
  match bs with
  | [] => rfl
  | [_] => rfl
  | b :: c :: rest => rw [decode, if_neg h]

/-- A byte that is no digit ends what a percent sign may have started. -/
def NoDigit (bs : List UInt8) : Prop :=
  ∀ b ∈ bs.head?, Text.Hex.value? (Char.ofNat b.toNat) = none

theorem decode_sign_of_noDigit {bs : List UInt8} (h : NoDigit bs) :
    decode (sign :: bs) = sign :: decode bs := by
  match bs with
  | [] => rfl
  | [_] => rfl
  | b :: c :: rest =>
    have hb : pair? b c = none := by simp [pair?, h b rfl]
    rw [decode, if_pos rfl, hb]

theorem decode_sign_digit_of_noDigit (b : UInt8) {bs : List UInt8} (h : NoDigit bs) :
    decode (sign :: b :: bs) = sign :: decode (b :: bs) := by
  match bs with
  | [] => rfl
  | c :: rest =>
    have hb : pair? b c = none := by simp [pair?, h c rfl]
    rw [decode, if_pos rfl, hb]

theorem length_decode_le (bs : List UInt8) : (decode bs).length ≤ bs.length := by
  induction bs using decode.induct with
  | case1 | case2 | case3 => exact Nat.le_refl _
  | case4 a b c rest byte hpair ih =>
    rw [decode, hpair]
    simp only [List.length_cons]
    omega
  | case5 a b c rest hpair ih =>
    rw [decode, hpair]
    simp only [List.length_cons] at ih ⊢
    omega

theorem decode_ne_nil {bs : List UInt8} (h : bs ≠ []) : decode bs ≠ [] := by
  match bs with
  | [] => exact absurd rfl h
  | [_] => simp [decode]
  | [_, _] => simp [decode]
  | a :: b :: c :: rest =>
    rw [decode]
    split <;> simp

/-! ## Codes -/

theorem value?_digit : ∀ n < 16, Text.Hex.value? (Char.ofNat (UInt8.ofNat (digit n).toNat).toNat) =
    some n ∧ (digit n).toNat < 128 := by decide

theorem mem_code {c : Char} {b : UInt8} (h : c ∈ code b) : c = '%' ∨ ∃ n < 16, c = digit n := by
  have hb := b.toNat_lt
  simp only [code, List.mem_cons, List.not_mem_nil, or_false] at h
  rcases h with hsign | hhigh | hlow
  · exact .inl hsign
  · exact .inr ⟨b.toNat / 16, by omega, hhigh⟩
  · exact .inr ⟨b.toNat % 16, by omega, hlow⟩

theorem utf8_code (b : UInt8) : utf8 (code b) =
    [sign, UInt8.ofNat (digit (b.toNat / 16)).toNat, UInt8.ofNat (digit (b.toNat % 16)).toNat] := by
  have hb := b.toNat_lt
  have hhigh := (value?_digit (b.toNat / 16) (by omega)).2
  have hlow := (value?_digit (b.toNat % 16) (by omega)).2
  simp only [code, Text.utf8_cons, Text.utf8_nil, Text.utf8EncodeChar_ascii hhigh,
    Text.utf8EncodeChar_ascii hlow, Text.utf8EncodeChar_ascii (show '%'.toNat < 128 by decide)]
  rfl

theorem decode_code (b : UInt8) (bs : List UInt8) :
    decode (utf8 (code b) ++ bs) = b :: decode bs := by
  have hb := b.toNat_lt
  have hpair : pair? (UInt8.ofNat (digit (b.toNat / 16)).toNat)
      (UInt8.ofNat (digit (b.toNat % 16)).toNat) = some b := by
    simp only [pair?, (value?_digit (b.toNat / 16) (by omega)).1,
      (value?_digit (b.toNat % 16) (by omega)).1, Option.bind_eq_bind, Option.bind_some,
      Nat.div_add_mod', UInt8.ofNat_toNat]
    rfl
  rw [utf8_code]
  simp only [List.cons_append, List.nil_append, decode, if_pos, hpair]

theorem decode_codes (codes bs : List UInt8) :
    decode (utf8 (codes.flatMap code) ++ bs) = codes ++ decode bs := by
  induction codes with
  | nil => rfl
  | cons b codes ih =>
    rw [List.flatMap_cons, Text.utf8_append, List.append_assoc, decode_code, ih, List.cons_append]

theorem decode_foreign {foreign : List UInt8} (h : ∀ b ∈ foreign, IsForeign b) (bs : List UInt8) :
    decode (foreign ++ bs) = foreign ++ decode bs := by
  induction foreign with
  | nil => rfl
  | cons b foreign ih =>
    obtain ⟨hb, hrest⟩ := List.forall_mem_cons.mp h
    rw [List.cons_append, decode_cons_of_ne hb.1, ih hrest, List.cons_append]

/-- The characters of the class stand outside of codes, and the others are ASCII. -/
structure SparesCodes (isCoded : Char → Bool) : Prop where
  foreign : ∀ c, isCoded c = true → ∀ b ∈ String.utf8EncodeChar c, IsForeign b
  ascii : ∀ c, isCoded c = false → c.toNat < 128

theorem encode_cons (isCoded : Char → Bool) (c : Char) (cs : List Char) :
    encode isCoded (c :: cs) =
      (if isCoded c then (String.utf8EncodeChar c).flatMap code else [c]) ++ encode isCoded cs :=
  rfl

section
variable {isCoded : Char → Bool} {c : Char}

theorem utf8_encode_coded (h : isCoded c = true) (cs : List Char) :
    utf8 (encode isCoded (c :: cs)) =
      utf8 ((String.utf8EncodeChar c).flatMap code) ++ utf8 (encode isCoded cs) := by
  rw [encode_cons, if_pos h, Text.utf8_append]

theorem utf8_encode_plain (hspares : SparesCodes isCoded) (h : isCoded c = false)
    (cs : List Char) :
    utf8 (encode isCoded (c :: cs)) = UInt8.ofNat c.toNat :: utf8 (encode isCoded cs) := by
  rw [encode_cons, if_neg (by simp [h]), List.singleton_append, Text.utf8_cons,
    Text.utf8EncodeChar_ascii (hspares.ascii c h), List.singleton_append]

theorem utf8_plain (hspares : SparesCodes isCoded) (h : isCoded c = false) (cs : List Char) :
    utf8 (c :: cs) = UInt8.ofNat c.toNat :: utf8 cs := by
  rw [Text.utf8_cons, Text.utf8EncodeChar_ascii (hspares.ascii c h), List.singleton_append]

/-- No code goes on with a character of the class, be it written as it is or in codes. -/
theorem noDigit_of_coded (hspares : SparesCodes isCoded) (h : isCoded c = true) (cs : List Char) :
    NoDigit (utf8 (encode isCoded (c :: cs))) ∧ NoDigit (utf8 (c :: cs)) := by
  obtain ⟨b, bs, hbytes⟩ : ∃ b bs, String.utf8EncodeChar c = b :: bs :=
    List.exists_cons_of_ne_nil (by simp)
  constructor
  · rw [utf8_encode_coded h, hbytes, List.flatMap_cons, Text.utf8_append, utf8_code]
    rintro a ⟨⟩
    decide
  · rw [Text.utf8_cons, hbytes]
    rintro a ⟨⟩
    exact (hspares.foreign c h b (hbytes ▸ List.mem_cons_self)).2

/-- **Coding changes nothing about what is read.** -/
theorem decode_encode (hspares : SparesCodes isCoded) :
    ∀ cs : List Char, decode (utf8 (encode isCoded cs)) = decode (utf8 cs)
  | [] => rfl
  | c :: cs => by
    have ih := decode_encode hspares cs
    cases hc : isCoded c with
    | true =>
      rw [utf8_encode_coded hc, decode_codes, ih, Text.utf8_cons,
        decode_foreign (hspares.foreign c hc)]
    | false =>
      rw [utf8_encode_plain hspares hc, utf8_plain hspares hc]
      by_cases hsign : UInt8.ofNat c.toNat = sign
      · rw [hsign]
        -- the two characters after the sign decide whether a code starts
        match cs with
        | [] => rfl
        | d :: cs =>
          cases hd : isCoded d with
          | true =>
            obtain ⟨hcoded, hraw⟩ := noDigit_of_coded hspares hd cs
            rw [decode_sign_of_noDigit hcoded, decode_sign_of_noDigit hraw, ih]
          | false =>
            rw [utf8_encode_plain hspares hd, utf8_plain hspares hd] at ih ⊢
            match cs with
            | [] => rfl
            | e :: cs =>
              cases he : isCoded e with
              | true =>
                obtain ⟨hcoded, hraw⟩ := noDigit_of_coded hspares he cs
                rw [decode_sign_digit_of_noDigit _ hcoded, decode_sign_digit_of_noDigit _ hraw, ih]
              | false =>
                have ihlater := decode_encode hspares cs
                rw [utf8_encode_plain hspares he, utf8_plain hspares he] at ih ⊢
                rw [decode, decode, if_pos rfl, ihlater, ih]
      · rw [decode_cons_of_ne hsign, decode_cons_of_ne hsign, ih]
  termination_by cs => cs.length

end

end Percent

end Gatehouse.Http
