import Gatehouse.Keys.Token

/-!
The bytes of a text, character by character.

An ASCII character is one byte, its code; every byte of any other character is at least `0x80`
(`utf8EncodeChar_high`), so that no such byte is taken for a character of a format. The bytes of a
text determine the text (`textOf?_utf8`).
-/

namespace Gatehouse.Text

/-- The bytes of characters. -/
def utf8 (cs : List Char) : List UInt8 := cs.flatMap String.utf8EncodeChar

@[simp] theorem utf8_nil : utf8 [] = [] := rfl

@[simp] theorem utf8_cons (c : Char) (cs : List Char) :
    utf8 (c :: cs) = String.utf8EncodeChar c ++ utf8 cs := rfl

@[simp] theorem utf8_append (as bs : List Char) : utf8 (as ++ bs) = utf8 as ++ utf8 bs :=
  List.flatMap_append

/-- What a byte array's listing has still to take up, by the number of bytes left. -/
private theorem listing (bs : ByteArray) :
    ∀ (left i : Nat) (done : List UInt8), left = bs.size - i →
      ByteArray.toList.loop bs i done = done.reverse ++ bs.data.toList.drop i
  | 0, i, done, h => by
    have hi : ¬ i < bs.size := by omega
    have hd : bs.data.toList.drop i = [] := List.drop_eq_nil_of_le (Nat.le_of_not_lt hi)
    rw [ByteArray.toList.loop, if_neg hi, hd, List.append_nil]
  | left + 1, i, done, h => by
    have hi : i < bs.size := by omega
    have hd : bs.data.toList.drop i = bs.get! i :: bs.data.toList.drop (i + 1) := by
      rw [List.drop_eq_getElem_cons (show i < bs.data.toList.length from hi), Array.getElem_toList]
      exact congrArg (· :: _) (getElem!_pos bs.data i hi).symm
    rw [ByteArray.toList.loop, if_pos hi, listing bs left (i + 1) _ (by omega), hd,
      List.reverse_cons, List.append_assoc, List.singleton_append]

theorem toList_byteArray (bs : ByteArray) : bs.toList = bs.data.toList := by
  rw [ByteArray.toList, listing bs bs.size 0 [] rfl]
  rfl

theorem toList_toUTF8 (s : String) : s.toUTF8.toList = utf8 s.toList := by
  have h : s.toUTF8 = s.toList.utf8Encode := String.utf8Encode_toList.symm
  rw [h, toList_byteArray, List.utf8Encode, List.toList_data_toByteArray]
  rfl

theorem bytesOf_eq (cs : List Char) : Token.bytesOf cs = utf8 cs := by
  rw [Token.bytesOf, toList_toUTF8, String.toList_ofList]

theorem textOf?_utf8 (s : String) : Json.Scan.textOf? (utf8 s.toList) = some s := by
  have hb : (⟨(utf8 s.toList).toArray⟩ : ByteArray) = s.toByteArray := by
    apply ByteArray.ext
    rw [← toList_toUTF8, toList_byteArray, Array.toArray_toList]
    rfl
  simp only [Json.Scan.textOf?, hb, String.fromUTF8?, s.isValidUTF8, dif_pos]
  rfl

theorem utf8_injective {as bs : List Char} (h : utf8 as = utf8 bs) : as = bs := by
  have hread : Json.Scan.textOf? (utf8 as) = some (String.ofList as) := by
    simpa using textOf?_utf8 (String.ofList as)
  have hread' : Json.Scan.textOf? (utf8 bs) = some (String.ofList bs) := by
    simpa using textOf?_utf8 (String.ofList bs)
  rw [h, hread', Option.some.injEq] at hread
  exact (String.ofList_injective hread).symm

/-- Whoever leaves out characters leaves out bytes. -/
theorem utf8_sublist {as bs : List Char} (h : as.Sublist bs) : (utf8 as).Sublist (utf8 bs) := by
  induction h with
  | slnil => exact List.Sublist.refl _
  | cons b _ ih => exact ih.trans (List.sublist_append_right _ _)
  | cons_cons b _ ih => exact (List.Sublist.refl _).append ih

theorem eq_of_utf8_length_le {as bs : List Char} (h : as.Sublist bs)
    (hle : (utf8 bs).length ≤ (utf8 as).length) : as = bs :=
  utf8_injective ((utf8_sublist h).eq_of_length_le hle)

theorem utf8EncodeChar_ascii {c : Char} (h : c.toNat < 128) :
    String.utf8EncodeChar c = [UInt8.ofNat c.toNat] := by
  have hv : c.val.toNat ≤ 127 := Nat.le_of_lt_succ h
  exact if_pos hv

/-- Every byte of a character beyond ASCII has its highest bit set. -/
theorem utf8EncodeChar_high {c : Char} (h : 128 ≤ c.toNat) :
    ∀ b ∈ String.utf8EncodeChar c, 128 ≤ b.toNat := by
  have hv : ¬ c.val.toNat ≤ 127 := Nat.not_le_of_lt h
  intro b hb
  unfold String.utf8EncodeChar at hb
  simp only [hv, if_false] at hb
  split at hb
  · simp only [List.mem_cons, List.not_mem_nil, or_false] at hb
    rcases hb with rfl | rfl <;> rw [UInt8.toNat_ofNat'] <;> omega
  · split at hb <;> simp only [List.mem_cons, List.not_mem_nil, or_false] at hb
    · rcases hb with rfl | rfl | rfl <;> rw [UInt8.toNat_ofNat'] <;> omega
    · rcases hb with rfl | rfl | rfl | rfl <;> rw [UInt8.toNat_ofNat'] <;> omega

/-- A character takes at least one byte. -/
theorem length_le_utf8 (cs : List Char) : cs.length ≤ (utf8 cs).length := by
  induction cs with
  | nil => simp
  | cons c cs ih =>
    have := c.utf8Size_pos
    simp only [utf8_cons, List.length_cons, List.length_append, String.length_utf8EncodeChar]
    omega

theorem utf8_ne_nil {cs : List Char} (h : cs ≠ []) : utf8 cs ≠ [] := by
  have hlength := length_le_utf8 cs
  have hpos := List.length_pos_iff.mpr h
  exact List.length_pos_iff.mp (by omega)

end Gatehouse.Text
