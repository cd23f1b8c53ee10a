import Gatehouse.Text.Base64

/-!
Base64 is read back as it was written (`decode_encode`), and its alphabet has no dot. Nothing else
than what is written for some bytes is read as those bytes (`decode_eq_some_iff`).
-/

namespace Gatehouse.Text.Base64

/-- The values of the characters that stand for some bytes. -/
def sextets : List UInt8 → List Nat
  | [] => []
  | [a] => [a.toNat * 16 / 64, a.toNat * 16 % 64]
  | [a, b] =>
    let n := (a.toNat * 256 + b.toNat) * 4
    [n / 4096, n / 64 % 64, n % 64]
  | a :: b :: c :: rest =>
    let n := (a.toNat * 256 + b.toNat) * 256 + c.toNat
    n / 262144 :: n / 4096 % 64 :: n / 64 % 64 :: n % 64 :: sextets rest

theorem encode_eq_map (bytes : List UInt8) : encode bytes = (sextets bytes).map symbol := by
  fun_induction sextets bytes with
  | case1 => rfl
  | case2 a => rfl
  | case3 a b n => rfl
  | case4 a b c rest n ih => rw [encode, ih]; rfl

theorem sextets_lt (bytes : List UInt8) : ∀ n ∈ sextets bytes, n < 64 := by
  fun_induction sextets bytes with
  | case1 => simp
  | case2 a =>
    have := a.toNat_lt
    simp only [List.mem_cons, List.not_mem_nil, or_false]
    omega
  | case3 a b n =>
    have := a.toNat_lt
    have := b.toNat_lt
    simp only [List.mem_cons, List.not_mem_nil, or_false]
    omega
  | case4 a b c rest n ih =>
    have := a.toNat_lt
    have := b.toNat_lt
    have := c.toNat_lt
    simp only [List.mem_cons]
    rintro m (rfl | rfl | rfl | rfl | hm)
    · omega
    · omega
    · omega
    · omega
    · exact ih m hm

/-- Every value has its own character, and the dot is none of them. -/
theorem value?_symbol : ∀ n < 64, value? (symbol n) = some n := by decide

theorem symbol_ne_dot : ∀ n < 64, symbol n ≠ '.' := by decide

private theorem byte_eq {b : UInt8} {n : Nat} (h : n = b.toNat) : UInt8.ofNat n = b := by
  rw [h, UInt8.ofNat_toNat]

theorem decodeValues_sextets (bytes : List UInt8) : decodeValues (sextets bytes) = some bytes := by
  fun_induction sextets bytes with
  | case1 => rfl
  | case2 a =>
    have := a.toNat_lt
    have h : a.toNat * 16 % 64 % 16 = 0 := by omega
    rw [decodeValues, if_pos h, byte_eq (b := a) (by omega)]
  | case3 a b n =>
    have := a.toNat_lt
    have := b.toNat_lt
    have h : n % 64 % 4 = 0 := by omega
    simp only [decodeValues, if_pos h]
    rw [byte_eq (b := a) (by omega), byte_eq (b := b) (by omega)]
  | case4 a b c rest n ih =>
    have := a.toNat_lt
    have := b.toNat_lt
    have := c.toNat_lt
    simp only [decodeValues, ih, Option.map_some]
    rw [byte_eq (b := a) (by omega), byte_eq (b := b) (by omega), byte_eq (b := c) (by omega)]

theorem mapM_value? {ns : List Nat} (h : ∀ n ∈ ns, n < 64) :
    (ns.map symbol).mapM value? = some ns := by
  induction ns with
  | nil => rfl
  | cons n ns ih =>
    rw [List.map_cons, List.mapM_cons, value?_symbol n (h n (by simp)),
      ih fun m hm => h m (by simp [hm])]
    rfl

theorem decode_encode (bytes : List UInt8) : decode (encode bytes) = some bytes := by
  rw [decode, encode_eq_map, mapM_value? (sextets_lt bytes)]
  exact decodeValues_sextets bytes

/-! ## Only what is written is read -/

theorem symbol_value? {c : Char} {n : Nat} (h : value? c = some n) : n < 64 ∧ symbol n = c := by
  have hchar : Char.ofNat c.toNat = c := Char.ofNat_toNat c
  unfold value? at h
  split at h
  · next hc =>
    obtain ⟨hlow, hhigh⟩ : 65 ≤ c.toNat ∧ c.toNat ≤ 90 := hc
    cases h
    refine ⟨by omega, ?_⟩
    rw [symbol, if_pos (by omega), Nat.sub_add_cancel (by omega), hchar]
  split at h
  · next hc =>
    obtain ⟨hlow, hhigh⟩ : 97 ≤ c.toNat ∧ c.toNat ≤ 122 := hc
    cases h
    refine ⟨by omega, ?_⟩
    rw [symbol, if_neg (by omega), if_pos (by omega), Nat.sub_add_cancel (by omega), hchar]
  split at h
  · next hc =>
    obtain ⟨hlow, hhigh⟩ : 48 ≤ c.toNat ∧ c.toNat ≤ 57 := hc
    cases h
    refine ⟨by omega, ?_⟩
    rw [symbol, if_neg (by omega), if_neg (by omega), if_pos (by omega), Nat.add_sub_cancel, hchar]
  split at h
  · next hc =>
    cases h
    exact ⟨by decide, hc.symm⟩
  split at h
  · next hc =>
    cases h
    exact ⟨by decide, hc.symm⟩
  · cases h

theorem map_symbol_of_mapM_value? {cs : List Char} {ns : List Nat} (h : cs.mapM value? = some ns) :
    (∀ n ∈ ns, n < 64) ∧ ns.map symbol = cs := by
  induction cs generalizing ns with
  | nil =>
    cases h
    exact ⟨by simp, rfl⟩
  | cons c cs ih =>
    rw [List.mapM_cons] at h
    obtain ⟨n, hn, h⟩ := Option.bind_eq_some_iff.mp h
    obtain ⟨rest, hrest, h⟩ := Option.bind_eq_some_iff.mp h
    cases h
    obtain ⟨hlt, hmap⟩ := ih hrest
    obtain ⟨hfirst, hsymbol⟩ := symbol_value? hn
    exact ⟨by simpa [hfirst] using hlt, by rw [List.map_cons, hsymbol, hmap]⟩

/-- No set bits are lost: the values are those of the bytes read. -/
theorem sextets_of_decodeValues {ns : List Nat} {bytes : List UInt8}
    (hlt : ∀ n ∈ ns, n < 64) (h : decodeValues ns = some bytes) : sextets bytes = ns := by
  fun_induction decodeValues ns generalizing bytes with
  | case1 =>
    cases h
    rfl
  | case2 => cases h
  | case3 a b hbits =>
    cases h
    simp only [List.mem_cons, List.not_mem_nil, or_false, forall_eq_or_imp, forall_eq] at hlt
    simp only [sextets, UInt8.toNat_ofNat']
    have ha : (a * 64 + b) / 16 % 2 ^ 8 * 16 / 64 = a := by omega
    have hb : (a * 64 + b) / 16 % 2 ^ 8 * 16 % 64 = b := by omega
    rw [ha, hb]
  | case4 => cases h
  | case5 a b c n =>
    cases h
    simp only [List.mem_cons, List.not_mem_nil, or_false, forall_eq_or_imp, forall_eq] at hlt
    have hdef : n = (a * 64 + b) * 64 + c := rfl
    have hn : (n / 1024 % 2 ^ 8 * 256 + n / 4 % 256 % 2 ^ 8) * 4 = n := by omega
    simp only [sextets, UInt8.toNat_ofNat', hn]
    have ha : n / 4096 = a := by omega
    have hb : n / 64 % 64 = b := by omega
    have hc : n % 64 = c := by omega
    rw [ha, hb, hc]
  | case6 => cases h
  | case7 a b c d rest n =>
    rename_i ih
    obtain ⟨more, hmore, rfl⟩ := Option.map_eq_some_iff.mp h
    simp only [List.mem_cons, forall_eq_or_imp] at hlt
    obtain ⟨ha, hb, hc, hd, hrest⟩ := hlt
    have hdef : n = ((a * 64 + b) * 64 + c) * 64 + d := rfl
    have hn : (n / 65536 % 2 ^ 8 * 256 + n / 256 % 256 % 2 ^ 8) * 256 + n % 256 % 2 ^ 8 = n := by
      omega
    simp only [sextets, UInt8.toNat_ofNat', hn, ih hrest hmore]
    have ha : n / 262144 = a := by omega
    have hb : n / 4096 % 64 = b := by omega
    have hc : n / 64 % 64 = c := by omega
    have hd : n % 64 = d := by omega
    rw [ha, hb, hc, hd]

/-- **Reading is strict.** Some bytes are read from one text only, the one that is written for
them. -/
theorem decode_eq_some_iff {cs : List Char} {bytes : List UInt8} :
    decode cs = some bytes ↔ cs = encode bytes := by
  constructor
  · intro h
    obtain ⟨ns, hns, hbytes⟩ := Option.bind_eq_some_iff.mp h
    obtain ⟨hlt, rfl⟩ := map_symbol_of_mapM_value? hns
    rw [encode_eq_map, sextets_of_decodeValues hlt hbytes]
  · rintro rfl
    exact decode_encode bytes

/-- Only characters of the alphabet are written. -/
theorem exists_of_mem_encode {c : Char} {bytes : List UInt8} (h : c ∈ encode bytes) :
    ∃ n < 64, symbol n = c := by
  rw [encode_eq_map] at h
  obtain ⟨n, hn, he⟩ := List.mem_map.1 h
  exact ⟨n, sextets_lt bytes n hn, he⟩

theorem dot_not_mem_encode (bytes : List UInt8) : '.' ∉ encode bytes := by
  intro h
  obtain ⟨n, hn, he⟩ := exists_of_mem_encode h
  exact symbol_ne_dot n hn he

end Gatehouse.Text.Base64
