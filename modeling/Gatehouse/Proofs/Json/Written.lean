import Gatehouse.Proofs.Json.Scan

/-!
A written value under the scanner: the whole text is one sound node that shows the value as it is
(`ofBytes_write`). What a reader of typed values makes of the text of a value is so a question
about `Json.node` only.
-/

namespace Gatehouse.Json

open Text (utf8)

mutual

/-- How a value looks to a reader of its text. -/
def node : Json → Node
  | null => .null
  | bool b => .bool b
  | integer n => .integer n
  | text s => .text s
  | array items => .array (nodes items) true
  | object members => .object (memberNodes members) true

def nodes : List Json → List Node
  | [] => []
  | item :: items => item.node :: nodes items

def memberNodes : List (String × Json) → List (Option String × Node)
  | [] => []
  | (key, value) :: members => (some key, value.node) :: memberNodes members

end

@[simp] theorem isSound_node (j : Json) : j.node.isSound = true := by cases j <;> rfl

@[simp] theorem memberNodes_append (ms ns : List (String × Json)) :
    memberNodes (ms ++ ns) = memberNodes ms ++ memberNodes ns := by
  induction ms with
  | nil => rfl
  | cons m ms ih =>
    obtain ⟨key, value⟩ := m
    rw [List.cons_append, memberNodes, memberNodes, ih, List.cons_append]

namespace Scan

/-! ## The first byte of a value -/

/-- The text goes on with something that is neither a blank nor a closing bracket. -/
def Opens (bs : List UInt8) : Prop :=
  ∃ b rest, bs = b :: rest ∧ isSpace b = false ∧ b ≠ byte ']'

theorem Opens.append {bs : List UInt8} (h : Opens bs) (rest : List UInt8) :
    Opens (bs ++ rest) := by
  obtain ⟨b, bs, rfl, hs, hb⟩ := h
  exact ⟨b, bs ++ rest, rfl, hs, hb⟩

theorem opens_ascii {c : Char} (hc : c.toNat < 128) (hs : isSpace (byte c) = false)
    (hb : byte c ≠ byte ']') (cs : List Char) : Opens (utf8 (c :: cs)) :=
  ⟨byte c, utf8 cs, by rw [Text.utf8_cons, Text.utf8EncodeChar_ascii hc]; rfl, hs, hb⟩

theorem digit_facts {b : UInt8} (h : isDigit b = true) :
    isSpace b = false ∧ b ≠ byte ']' ∧ b ≠ byte '"' ∧ b ≠ byte '[' ∧ b ≠ byte '\x7b' ∧
      b ≠ byte 'n' ∧ b ≠ byte 't' ∧ b ≠ byte 'f' ∧ b ≠ byte '-' := by
  refine ⟨?_, ?_, ?_, ?_, ?_, ?_, ?_, ?_, ?_⟩
  · simp only [isSpace, Bool.or_eq_false_iff, beq_eq_false_iff_ne]
    refine ⟨⟨⟨?_, ?_⟩, ?_⟩, ?_⟩ <;> (rintro rfl; revert h; decide)
  all_goals (rintro rfl; revert h; decide)

/-- The digits of a number start with a digit. -/
theorem natDigits_cons (n : Nat) :
    ∃ b bs, utf8 (Text.natDigits n) = b :: bs ∧ isDigit b = true := by
  have hne : Text.natDigits n ≠ [] := Nat.toDigits_ne_nil
  obtain ⟨b, bs, hbytes⟩ := List.exists_cons_of_ne_nil (Text.utf8_ne_nil hne)
  have hfirst : b ∈ utf8 (Text.natDigits n) := hbytes ▸ List.mem_cons_self
  rw [utf8_natDigits] at hfirst
  exact ⟨b, bs, hbytes, isDigit_natDigits n b hfirst⟩

theorem opens_write (j : Json) : Opens (utf8 j.write) := by
  cases j with
  | null => exact opens_ascii (by decide) (by decide) (by decide) _
  | bool b => cases b <;> exact opens_ascii (by decide) (by decide) (by decide) _
  | integer n =>
    rw [write, writeInt]
    split
    · exact opens_ascii (by decide) (by decide) (by decide) _
    · obtain ⟨b, bs, he, hb⟩ := natDigits_cons n.natAbs
      exact ⟨b, bs, he, (digit_facts hb).1, (digit_facts hb).2.1⟩
  | text s => exact opens_ascii (by decide) (by decide) (by decide) _
  | array items => exact opens_ascii (by decide) (by decide) (by decide) _
  | object members => exact opens_ascii (by decide) (by decide) (by decide) _

/-! ## Values -/

theorem skipSpace_cons {b : UInt8} (h : isSpace b = false) (bs : List UInt8) :
    skipSpace (b :: bs) = b :: bs := by
  simp [skipSpace, h]

theorem utf8_cons_ascii {c : Char} (h : c.toNat < 128) (cs : List Char) :
    utf8 (c :: cs) = byte c :: utf8 cs := by
  rw [Text.utf8_cons, Text.utf8EncodeChar_ascii h]
  rfl

theorem value_integer (n : Int) (fuel : Nat) {rest : List UInt8} (hr : Ends rest) :
    value (fuel + 1) (utf8 (writeInt n) ++ rest) = (.integer n, rest) := by
  by_cases hn : n < 0
  · have hnum := number_natDigits true (n := n.natAbs) (by omega) hr
    rw [writeInt, if_pos hn, utf8_cons_ascii (by decide), List.cons_append, value,
      skipSpace_cons (by decide)]
    simp only
    rw [if_neg (by decide), if_neg (by decide), if_neg (by decide), if_neg (by decide),
      if_neg (by decide), if_neg (by decide), if_pos trivial, hnum]
    simp only [if_true, Prod.mk.injEq, Node.integer.injEq, and_true]
    omega
  · have hnum := number_natDigits false (n := n.natAbs) (by simp) hr
    obtain ⟨b, bs, he, hb⟩ := natDigits_cons n.natAbs
    obtain ⟨hs, -, hq, ha, ho, hnull, ht, hf, hm⟩ := digit_facts hb
    rw [he, List.cons_append] at hnum
    rw [writeInt, if_neg hn, he, List.cons_append, value, skipSpace_cons hs]
    simp only [hq, ha, ho, hnull, ht, hf, hm, hb, if_true, if_false, hnum]
    simp only [Bool.false_eq_true, if_false, Prod.mk.injEq, Node.integer.injEq, and_true]
    omega

theorem value_text (s : String) (fuel : Nat) (rest : List UInt8) :
    value (fuel + 1) (utf8 (quote s) ++ rest) = (.text s, rest) := by
  rw [utf8_quote, value, skipSpace_cons (by decide)]
  simp only [if_true, quoted_escaped, stringNode]

/-! ## Lists and objects -/

theorem utf8_writeItems_cons (item next : Json) (more : List Json) :
    utf8 (writeItems (item :: next :: more)) =
      utf8 item.write ++ byte ',' :: utf8 (writeItems (next :: more)) := by
  rw [writeItems, Text.utf8_append, utf8_cons_ascii (by decide)]
  exact List.cons_ne_nil next more

theorem opens_writeItems (item : Json) (more : List Json) :
    Opens (utf8 (writeItems (item :: more))) := by
  cases more with
  | nil =>
    rw [writeItems, Text.utf8_append]
    exact (opens_write item).append _
  | cons next more =>
    rw [utf8_writeItems_cons]
    exact (opens_write item).append _

/-- A member up to the end of its value. -/
def memberBytes (key : String) (value : Json) : List UInt8 :=
  byte '"' :: (utf8 (key.toList.flatMap escapeChar) ++ byte '"' :: byte ':' :: utf8 value.write)

theorem utf8_member (key : String) (value : Json) :
    utf8 (quote key ++ ':' :: value.write) = memberBytes key value := by
  rw [Text.utf8_append, utf8_cons_ascii (by decide), utf8_quote]
  rfl

theorem utf8_writeMembers_singleton (key : String) (value : Json) :
    utf8 (writeMembers [(key, value)]) = memberBytes key value ++ [byte '\x7d'] := by
  rw [writeMembers, Text.utf8_append, utf8_member, utf8_cons_ascii (by decide), Text.utf8_nil]

theorem utf8_writeMembers_cons (key : String) (value : Json) (next : String × Json)
    (more : List (String × Json)) :
    utf8 (writeMembers ((key, value) :: next :: more)) =
      memberBytes key value ++ byte ',' :: utf8 (writeMembers (next :: more)) := by
  rw [writeMembers, Text.utf8_append, utf8_member, utf8_cons_ascii (by decide)]
  exact List.cons_ne_nil next more

theorem writeMembers_quote (key : String) (value : Json) (more : List (String × Json)) :
    ∃ bs, utf8 (writeMembers ((key, value) :: more)) = byte '"' :: bs := by
  cases more with
  | nil => exact ⟨_, utf8_writeMembers_singleton key value⟩
  | cons next more => exact ⟨_, utf8_writeMembers_cons key value next more⟩

theorem length_memberBytes (key : String) (value : Json) : (memberBytes key value).length =
    (utf8 (key.toList.flatMap escapeChar)).length + (utf8 value.write).length + 3 := by
  simp only [memberBytes, List.length_cons, List.length_append]
  omega

/-- A member is read up to the comma or brace that follows its value. -/
theorem members_step {key : String} {j : Json} {fuel : Nat} {b : UInt8} {rest : List UInt8}
    (hvalue : value fuel (utf8 j.write ++ b :: rest) = (j.node, b :: rest))
    (hs : isSpace b = false) :
    members (fuel + 1) (memberBytes key j ++ b :: rest) =
      if b = byte '\x7d' then ([(some key, j.node)], true, rest)
      else if b = byte ',' then
        ((some key, j.node) :: (members fuel rest).1, (members fuel rest).2)
      else ([(some key, j.node)], false, []) := by
  have hquoted := quoted_escaped key (byte ':' :: (utf8 j.write ++ b :: rest))
  simp only [memberBytes, List.cons_append, List.append_assoc]
  rw [members, skipSpace_cons (by decide)]
  simp only [if_true, hquoted, skipSpace_cons (show isSpace (byte ':') = false by decide), hvalue,
    isSound_node, skipSpace_cons hs, Except.toOption]

theorem Opens.fuel {bs : List UInt8} (h : Opens bs) {fuel : Nat} (hf : bs.length ≤ fuel) :
    ∃ k, fuel = k + 1 := by
  obtain ⟨b, rest, rfl, -, -⟩ := h
  rw [List.length_cons] at hf
  exact ⟨fuel - 1, by omega⟩

mutual

/-- The fuel that a text of this length needs is enough: by induction on the value, with what
follows it left open. -/
theorem value_write : ∀ (j : Json) (fuel : Nat) (rest : List UInt8), Ends rest →
    (utf8 j.write).length ≤ fuel → value fuel (utf8 j.write ++ rest) = (j.node, rest)
  | null, fuel, rest, hr, hf => by
    obtain ⟨fuel, rfl⟩ := (opens_write null).fuel hf
    rfl
  | bool b, fuel, rest, hr, hf => by
    obtain ⟨fuel, rfl⟩ := (opens_write (bool b)).fuel hf
    cases b <;> rfl
  | integer n, fuel, rest, hr, hf => by
    obtain ⟨fuel, rfl⟩ := (opens_write (integer n)).fuel hf
    exact value_integer n fuel hr
  | text s, fuel, rest, hr, hf => by
    obtain ⟨fuel, rfl⟩ := (opens_write (text s)).fuel hf
    exact value_text s fuel rest
  | array [], fuel, rest, hr, hf => by
    obtain ⟨fuel, rfl⟩ := (opens_write (array [])).fuel hf
    rfl
  | array (item :: more), fuel, rest, hr, hf => by
    obtain ⟨fuel, rfl⟩ := (opens_write (array (item :: more))).fuel hf
    rw [write, utf8_cons_ascii (by decide), List.length_cons] at hf
    have hitems := items_write (item :: more) fuel rest (by simp) (by omega)
    obtain ⟨b, bs, he, hs, hb⟩ := (opens_writeItems item more).append rest
    rw [write, utf8_cons_ascii (by decide), List.cons_append, value, skipSpace_cons (by decide)]
    rw [he] at hitems ⊢
    simp only [skipSpace_cons hs, hb, hitems, if_false, node]
    rfl
  | object [], fuel, rest, hr, hf => by
    obtain ⟨fuel, rfl⟩ := (opens_write (object [])).fuel hf
    rfl
  | object ((key, member) :: more), fuel, rest, hr, hf => by
    obtain ⟨fuel, rfl⟩ := (opens_write (object ((key, member) :: more))).fuel hf
    rw [write, utf8_cons_ascii (by decide), List.length_cons] at hf
    have hmembers := members_write ((key, member) :: more) fuel rest (by simp) (by omega)
    obtain ⟨bs, he⟩ := writeMembers_quote key member more
    rw [write, utf8_cons_ascii (by decide), List.cons_append, value, skipSpace_cons (by decide)]
    rw [he, List.cons_append] at hmembers ⊢
    simp only [skipSpace_cons (show isSpace (byte '"') = false by decide), hmembers, node]
    rfl

theorem items_write : ∀ (js : List Json) (fuel : Nat) (rest : List UInt8), js ≠ [] →
    (utf8 (writeItems js)).length ≤ fuel →
      items fuel (utf8 (writeItems js) ++ rest) = (nodes js, true, rest)
  | [], _, _, hne, _ => absurd rfl hne
  | [item], fuel, rest, _, hf => by
    obtain ⟨fuel, rfl⟩ := (opens_writeItems item []).fuel hf
    rw [writeItems, Text.utf8_append, utf8_cons_ascii (by decide)] at hf ⊢
    rw [List.length_append, List.length_cons] at hf
    have hvalue := value_write item fuel (byte ']' :: rest) (Ends.cons (by decide) rest) (by omega)
    rw [items, List.append_assoc, List.cons_append, Text.utf8_nil, List.nil_append, hvalue]
    simp only [isSound_node, skipSpace_cons (show isSpace (byte ']') = false by decide)]
    rfl
  | item :: next :: more, fuel, rest, _, hf => by
    obtain ⟨fuel, rfl⟩ := (opens_writeItems item (next :: more)).fuel hf
    rw [utf8_writeItems_cons] at hf ⊢
    rw [List.length_append, List.length_cons] at hf
    have hvalue := value_write item fuel (byte ',' :: (utf8 (writeItems (next :: more)) ++ rest))
      (Ends.cons (by decide) _) (by omega)
    have hmore := items_write (next :: more) fuel rest (by simp) (by omega)
    rw [items, List.append_assoc, List.cons_append, hvalue]
    simp only [isSound_node, skipSpace_cons (show isSpace (byte ',') = false by decide), hmore]
    rfl

theorem members_write : ∀ (ms : List (String × Json)) (fuel : Nat) (rest : List UInt8), ms ≠ [] →
    (utf8 (writeMembers ms)).length ≤ fuel →
      members fuel (utf8 (writeMembers ms) ++ rest) = (memberNodes ms, true, rest)
  | [], _, _, hne, _ => absurd rfl hne
  | [(key, member)], fuel, rest, _, hf => by
    rw [utf8_writeMembers_singleton] at hf ⊢
    rw [List.length_append, length_memberBytes] at hf
    obtain ⟨fuel, rfl⟩ : ∃ k, fuel = k + 1 := ⟨fuel - 1, by omega⟩
    have hvalue := value_write member fuel (byte '\x7d' :: rest) (Ends.cons (by decide) rest)
      (by omega)
    rw [List.append_assoc, List.singleton_append, members_step hvalue (by decide), if_pos rfl]
    rfl
  | (key, member) :: next :: more, fuel, rest, _, hf => by
    rw [utf8_writeMembers_cons] at hf ⊢
    rw [List.length_append, List.length_cons, length_memberBytes] at hf
    obtain ⟨fuel, rfl⟩ : ∃ k, fuel = k + 1 := ⟨fuel - 1, by omega⟩
    have hvalue := value_write member fuel
      (byte ',' :: (utf8 (writeMembers (next :: more)) ++ rest)) (Ends.cons (by decide) _)
      (by omega)
    have hmore := members_write (next :: more) fuel rest (by simp) (by omega)
    rw [List.append_assoc, List.cons_append, members_step hvalue (by decide), if_neg (by decide),
      if_pos rfl, hmore]
    rfl

end

end Scan

/-- The text of a value is that value to its end. -/
theorem ofBytes_write (j : Json) : Document.ofBytes (utf8 j.write) = ⟨j.node, true⟩ := by
  have h := Scan.value_write j ((utf8 j.write).length + 1) [] Scan.Ends.nil (by omega)
  rw [List.append_nil] at h
  rw [Document.ofBytes, h]
  rfl

/-- The text of a value, read as a string. -/
theorem ofString_render (j : Json) : Document.ofString j.render = ⟨j.node, true⟩ := by
  rw [Document.ofString, render, Text.toList_toUTF8, String.toList_ofList]
  exact ofBytes_write j

end Gatehouse.Json
