import Gatehouse.Json.Value
import Gatehouse.Proofs.Text.Utf8

/-!
Written strings and numbers under the scanner.

A quoted string comes back as its text (`quoted_escaped`): escapes are undone, and no byte of a
character that is written as it stands looks like a quote, a backslash or a control character. The
digits of a number come back as its value (`number_natDigits`) if what follows cannot go on a
number.
-/

namespace Gatehouse.Json.Scan

open Text (utf8)

/-! ## Strings -/

/-- A byte that stands for itself within a string. -/
def IsPlain (b : UInt8) : Prop := b ≠ byte '"' ∧ b ≠ byte '\\' ∧ ¬ b < 0x20

theorem pieces_plain {bs : List UInt8} (h : ∀ b ∈ bs, IsPlain b) (rest : List UInt8) :
    pieces (bs ++ rest) = (pieces rest).map fun p => (bs.map Piece.raw ++ p.1, p.2) := by
  induction bs with
  | nil => simp
  | cons b bs ih =>
    obtain ⟨hq, hs, hc⟩ := h b (by simp)
    rw [List.cons_append, pieces.eq_def]
    simp only [hq, hs, hc, if_false, ih fun x hx => h x (by simp [hx]), Option.map_map]
    rfl

theorem assemble_raw (bs : List UInt8) (ps : List Piece) :
    assemble (bs.map Piece.raw ++ ps) = (assemble ps).map (bs ++ ·) := by
  induction bs with
  | nil => exact (congrFun Except.map_id (assemble ps)).symm
  | cons b bs ih =>
    rw [List.map_cons, List.cons_append, assemble, ih]
    cases assemble ps <;> rfl

/-- Pieces `qs` stand in a text for the bytes `bs`, and mean the character `c`. -/
def Spells (bs : List UInt8) (qs : List Piece) (c : Char) : Prop :=
  (∀ rest, pieces (bs ++ rest) = (pieces rest).map fun p => (qs ++ p.1, p.2)) ∧
    ∀ ps, assemble (qs ++ ps) = (assemble ps).map (String.utf8EncodeChar c ++ ·)

theorem spells_plain {c : Char} (hq : c ≠ '"') (hs : c ≠ '\\') (hc : ¬ c.toNat < 0x20) :
    Spells (utf8 [c]) ((String.utf8EncodeChar c).map Piece.raw) c := by
  have hp : ∀ b ∈ String.utf8EncodeChar c, IsPlain b := by
    by_cases ha : c.toNat < 128
    · rw [Text.utf8EncodeChar_ascii ha]
      have hn : (UInt8.ofNat c.toNat).toNat = c.toNat := by rw [UInt8.toNat_ofNat']; omega
      have hne : ∀ d : Char, d.toNat < 128 → c ≠ d → UInt8.ofNat c.toNat ≠ byte d := by
        intro d hd h e
        refine h (Char.toNat_inj.1 ?_)
        have := congrArg UInt8.toNat e
        rwa [hn, byte, UInt8.toNat_ofNat', Nat.mod_eq_of_lt (by omega)] at this
      simp only [List.mem_singleton, forall_eq]
      refine ⟨hne _ (by decide) hq, hne _ (by decide) hs, fun h => hc ?_⟩
      rwa [UInt8.lt_iff_toNat_lt, hn] at h
    · intro b hb
      have h := Text.utf8EncodeChar_high (Nat.le_of_not_lt ha) b hb
      refine ⟨?_, ?_, ?_⟩
      · rintro rfl; exact absurd h (by decide)
      · rintro rfl; exact absurd h (by decide)
      · intro h'
        rw [UInt8.lt_iff_toNat_lt] at h'
        exact absurd (show b.toNat < 32 from h') (by omega)
  constructor
  · intro rest
    rw [Text.utf8_cons, Text.utf8_nil, List.append_nil]
    exact pieces_plain hp rest
  · exact assemble_raw _

/-- A two-character escape, once its letter is known to the scanner. -/
theorem spells_letter {c d : Char} (hd : d.toNat < 128) (hc : c.toNat < 128)
    (he : simpleEscape? (byte d) = some (byte c)) :
    Spells (utf8 ['\\', d]) [.raw (byte c)] c := by
  have hb : String.utf8EncodeChar d = [byte d] := Text.utf8EncodeChar_ascii hd
  constructor
  · intro rest
    rw [Text.utf8_cons, Text.utf8_cons, Text.utf8_nil, List.append_nil, hb,
      Text.utf8EncodeChar_ascii (c := '\\') (by decide), List.append_assoc, List.singleton_append,
      List.singleton_append, pieces.eq_def]
    simp only [he]
    rw [if_neg (by decide), if_pos (by decide)]
    rfl
  · intro ps
    rw [Text.utf8EncodeChar_ascii hc, List.singleton_append, assemble]
    rfl

/-- The escape of a control character by its number. -/
theorem spells_code {c : Char} (h : c.toNat < 0x20) :
    Spells (utf8 ['\\', 'u', '0', '0', Text.Hex.digit (c.toNat / 16), Text.Hex.digit (c.toNat % 16)])
      [.code c.toNat] c := by
  have hex : ∀ n < 32, ∀ rest,
      utf8 ['\\', 'u', '0', '0', Text.Hex.digit (n / 16), Text.Hex.digit (n % 16)] ++ rest =
        byte '\\' :: byte 'u' :: byte '0' :: byte '0' :: byte (Text.Hex.digit (n / 16)) ::
          byte (Text.Hex.digit (n % 16)) :: rest := by
    have ascii : ∀ k < 16, (Text.Hex.digit k).toNat < 128 := by decide
    intro n hn rest
    simp only [Text.utf8_cons, Text.utf8_nil, Text.utf8EncodeChar_ascii (ascii (n / 16) (by omega)),
      Text.utf8EncodeChar_ascii (ascii (n % 16) (by omega))]
    rfl
  have quad : ∀ n < 32, hexQuad? (byte '0') (byte '0') (byte (Text.Hex.digit (n / 16)))
      (byte (Text.Hex.digit (n % 16))) = some n := by decide
  have whole : ∀ n < 32, isHighHalf n = false ∧ isLowHalf n = false := by decide
  constructor
  · intro rest
    rw [hex c.toNat h, pieces.eq_def]
    simp only [show simpleEscape? (byte 'u') = none from by decide, if_true, quad c.toNat h]
    rw [if_neg (by decide)]
    rfl
  · intro ps
    rw [List.singleton_append, assemble.eq_def]
    simp [(whole c.toNat h).1, (whole c.toNat h).2, Char.ofNat_toNat]

theorem spells_escapeChar (c : Char) : ∃ qs, Spells (utf8 (escapeChar c)) qs c := by
  unfold escapeChar
  split
  · next h => subst h; exact ⟨_, spells_letter (by decide) (by decide) (by decide)⟩
  split
  · next h => subst h; exact ⟨_, spells_letter (by decide) (by decide) (by decide)⟩
  split
  · next h => subst h; exact ⟨_, spells_letter (by decide) (by decide) (by decide)⟩
  split
  · next h => subst h; exact ⟨_, spells_letter (by decide) (by decide) (by decide)⟩
  split
  · next h => subst h; exact ⟨_, spells_letter (by decide) (by decide) (by decide)⟩
  split
  · next h => subst h; exact ⟨_, spells_letter (by decide) (by decide) (by decide)⟩
  split
  · next h => subst h; exact ⟨_, spells_letter (by decide) (by decide) (by decide)⟩
  split
  · next h => exact ⟨_, spells_code h⟩
  · next hq hs _ _ _ _ _ hc => exact ⟨_, spells_plain hq hs hc⟩

/-- The scanner finds the end of a written string, and its pieces mean the text. -/
theorem pieces_escaped (cs : List Char) (rest : List UInt8) :
    ∃ ps, pieces (utf8 (cs.flatMap escapeChar) ++ byte '"' :: rest) = some (ps, rest) ∧
      assemble ps = .ok (utf8 cs) := by
  induction cs with
  | nil => exact ⟨[], by simp [pieces.eq_def], rfl⟩
  | cons c cs ih =>
    obtain ⟨ps, hp, ha⟩ := ih
    obtain ⟨qs, hpieces, hassemble⟩ := spells_escapeChar c
    refine ⟨qs ++ ps, ?_, ?_⟩
    · rw [List.flatMap_cons, Text.utf8_append, List.append_assoc, hpieces, hp]
      rfl
    · rw [hassemble, ha]
      rfl

theorem quoted_escaped (s : String) (rest : List UInt8) :
    quoted (utf8 (s.toList.flatMap escapeChar) ++ byte '"' :: rest) = some (.ok s, rest) := by
  obtain ⟨ps, hp, ha⟩ := pieces_escaped s.toList rest
  simp only [quoted, hp, Option.map_some, textOf, ha, Text.textOf?_utf8]

/-- A string after its opening quote comes back as its text. -/
theorem utf8_quote (s : String) (rest : List UInt8) :
    utf8 (quote s) ++ rest =
      byte '"' :: (utf8 (s.toList.flatMap escapeChar) ++ byte '"' :: rest) := by
  have hb : String.utf8EncodeChar '"' = [byte '"'] := Text.utf8EncodeChar_ascii (by decide)
  simp [quote, hb]

/-! ## Numbers -/

theorem byte_digitChar : ∀ d < 10, isDigit (byte (Nat.digitChar d)) = true ∧
    (byte (Nat.digitChar d)).toNat - 48 = d ∧ (byte (Nat.digitChar d) = byte '0' → d = 0) := by
  decide

theorem utf8_natDigits (n : Nat) : utf8 (Text.natDigits n) = (Text.natDigits n).map byte := by
  have h : ∀ c ∈ Text.natDigits n, String.utf8EncodeChar c = [byte c] := fun c hc =>
    Text.utf8EncodeChar_ascii (Nat.lt_of_le_of_lt
      (Char.isDigit_iff_toNat.1 (Nat.isDigit_of_mem_toDigits (by decide) (by decide) hc)).2
      (by decide))
  generalize Text.natDigits n = cs at h ⊢
  induction cs with
  | nil => rfl
  | cons c cs ih =>
    rw [Text.utf8_cons, h c (by simp), ih fun x hx => h x (by simp [hx])]
    rfl

/-- The digits of a number from its last one. -/
theorem map_byte_natDigits (n : Nat) :
    (Text.natDigits n).map byte =
      if n < 10 then [byte (Nat.digitChar n)]
      else (Text.natDigits (n / 10)).map byte ++ [byte (Nat.digitChar (n % 10))] := by
  unfold Text.natDigits
  rw [Nat.toDigits_eq_if (by decide)]
  split <;> simp

theorem isDigit_natDigits (n : Nat) : ∀ b ∈ (Text.natDigits n).map byte, isDigit b = true := by
  induction n using Nat.strongRecOn with
  | _ n ih =>
    rw [map_byte_natDigits]
    split
    · next h =>
      simp only [List.mem_singleton, forall_eq]
      exact (byte_digitChar n h).1
    · intro b hb
      rcases List.mem_append.1 hb with hb | hb
      · exact ih (n / 10) (by omega) b hb
      · rw [List.mem_singleton.1 hb]
        exact (byte_digitChar (n % 10) (by omega)).1

theorem digitsValue_natDigits (n : Nat) : digitsValue ((Text.natDigits n).map byte) = n := by
  induction n using Nat.strongRecOn with
  | _ n ih =>
    rw [map_byte_natDigits]
    split
    · next h => simpa [digitsValue] using (byte_digitChar n h).2.1
    · have hd := (byte_digitChar (n % 10) (by omega)).2.1
      have hi := ih (n / 10) (by omega)
      simp only [digitsValue, List.foldl_append, List.foldl_cons, List.foldl_nil] at hi ⊢
      omega

/-- No number but zero is written with a leading zero. -/
theorem head?_natDigits {n : Nat} (hn : 0 < n) :
    ((Text.natDigits n).map byte).head? ≠ some (byte '0') := by
  induction n using Nat.strongRecOn with
  | _ n ih =>
    rw [map_byte_natDigits]
    split
    · next h =>
      rw [List.head?_cons, ne_eq, Option.some.injEq]
      intro he
      have := (byte_digitChar n h).2.2 he
      omega
    · have hi := ih (n / 10) (by omega) (by omega)
      have hne : (Text.natDigits (n / 10)).map byte ≠ [] := by
        simp [Text.natDigits]
      rwa [List.head?_append, Option.or_of_isSome (by simpa using hne)]

/-- What follows cannot go on a number. -/
def Ends (bs : List UInt8) : Prop :=
  ∀ b ∈ bs.head?, isDigit b = false ∧ b ≠ byte '.' ∧ b ≠ byte 'e' ∧ b ≠ byte 'E'

theorem Ends.nil : Ends [] := by intro b hb; cases hb

/-- The characters that follow a value within a list or an object. -/
theorem Ends.cons {b : UInt8} (h : b = byte ',' ∨ b = byte ']' ∨ b = byte '\x7d')
    (bs : List UInt8) : Ends (b :: bs) := by
  intro b' hb
  obtain rfl : b = b' := by simpa using hb
  rcases h with rfl | rfl | rfl <;> decide

theorem number_natDigits (negative : Bool) {n : Nat} (h : negative = true → 0 < n)
    {rest : List UInt8} (hr : Ends rest) :
    number negative (utf8 (Text.natDigits n) ++ rest) =
      (.integer (if negative then -(n : Int) else n), rest) := by
  have hd := isDigit_natDigits n
  have htake : (utf8 (Text.natDigits n) ++ rest).takeWhile isDigit = (Text.natDigits n).map byte := by
    rw [utf8_natDigits, List.takeWhile_append_of_pos hd]
    cases rest with
    | nil => simp
    | cons b bs => simp [(hr b rfl).1]
  have hdrop : (utf8 (Text.natDigits n) ++ rest).dropWhile isDigit = rest := by
    rw [utf8_natDigits, List.dropWhile_append_of_pos hd]
    cases rest with
    | nil => rfl
    | cons b bs => simp [(hr b rfl).1]
  have hfraction : fractionPart rest = some ([], rest) := by
    cases rest with
    | nil => rfl
    | cons b bs => simp [fractionPart, (hr b rfl).2.1]
  have hexponent : exponentPart rest = some (none, rest) := by
    cases rest with
    | nil => rfl
    | cons b bs => simp [exponentPart, (hr b rfl).2.2]
  have hne : (Text.natDigits n).map byte ≠ [] := by simp [Text.natDigits]
  have hlone : ((Text.natDigits n).map byte).length = 1 ∨
      ((Text.natDigits n).map byte).head? ≠ some (byte '0') := by
    rcases Nat.eq_zero_or_pos n with rfl | hn
    · exact .inl rfl
    · exact .inr (head?_natDigits hn)
  have hreal : (negative && n == 0) = false := by
    cases negative with
    | false => rfl
    | true => simpa using Nat.pos_iff_ne_zero.1 (h rfl)
  simp only [number, htake, hdrop, hfraction, hexponent, digitsValue_natDigits]
  rw [if_pos ⟨hne, hlone⟩]
  simp [hreal]

end Gatehouse.Json.Scan
