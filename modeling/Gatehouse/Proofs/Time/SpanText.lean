import Gatehouse.Proofs.Text.Decimal
import Gatehouse.Time.SpanText

/-!
What the texts of spans mean. A text that is a numeral and a unit is read as the span it says, if
count and seconds fit into words of 64 bits (`text_is_read_iff_fits`). A count that does not is
refused; but of minutes and hours whose seconds alone do not, the program does not survive the
multiplication.
-/

namespace Gatehouse

namespace Text

/-! ## Endings -/

theorem before?_append (ending cs : List Char) : before? ending (cs ++ ending) = some cs :=
  before?_eq_some_iff.mpr rfl

theorem before?_concat_self (ending cs : List Char) (c : Char) :
    before? (ending ++ [c]) (cs ++ [c]) = before? ending cs := by
  simp [before?, after?]

theorem before?_concat_of_ne (ending cs : List Char) {c d : Char} (h : c ≠ d) :
    before? (ending ++ [c]) (cs ++ [d]) = none := by
  simp [before?, after?, h]

end Text

namespace Span

open Text

/-- What a span is counted in. -/
inductive TimeUnit where
  | millis
  | seconds
  | minutes
  | hours
  /-- Nothing is written behind the number. -/
  | bare
  deriving DecidableEq

namespace TimeUnit

def letters : TimeUnit → List Char
  | millis => ['m', 's']
  | seconds => ['s']
  | minutes => ['m']
  | hours => ['h']
  | bare => []

/-- The nanoseconds in one. -/
def nanos : TimeUnit → Nat
  | millis => 1000000
  | seconds => 1000000000
  | minutes => 60 * 1000000000
  | hours => 3600 * 1000000000
  | bare => 1000000000

/-- The text is that many of the unit. -/
def Counts (unit : TimeUnit) (cs : List Char) (n : Nat) : Prop :=
  ∃ count, cs = count ++ unit.letters ∧ IsNumeral count n

/-- What a number of the unit is read as. -/
def spanOf : TimeUnit → Nat → Span
  | millis => ofMillis
  | seconds => ofSeconds
  | minutes => fun n => ofSeconds (n * 60)
  | hours => fun n => ofSeconds (n * 3600)
  | bare => ofSeconds

end TimeUnit

/-- The length of a span in nanoseconds. -/
def inNanos (d : Span) : Nat := d.seconds * 1000000000 + d.nanos

/-- The shortest length whose seconds do not fit into 64 bits, in nanoseconds. -/
def beyondWord : Nat := (max64 + 1) * 1000000000

/-! ## Reading -/

theorem readExact_append {count : List Char} {n : Nat} (unit : TimeUnit)
    (hcount : IsNumeral count n) :
    readExact (count ++ unit.letters) = readCount unit.spanOf count := by
  obtain ⟨init, c, rfl, hc⟩ := hcount.exists_concat
  have hnone : ∀ (ending : List Char) {l : Char}, l.isDigit = false →
      before? (ending ++ [l]) (init ++ [c]) = none := fun ending l hl =>
    before?_concat_of_ne ending init fun heq => by rw [heq, hc] at hl; cases hl
  -- the units before this one in the list: the text does not end in them
  have hms : before? ['m', 's'] (init ++ [c]) = none := hnone ['m'] (by decide)
  have hm : before? ['m'] (init ++ [c]) = none := hnone [] (by decide)
  have hs : before? ['s'] (init ++ [c]) = none := hnone [] (by decide)
  have hh : before? ['h'] (init ++ [c]) = none := hnone [] (by decide)
  have hother : ∀ (ending : List Char) {l d : Char}, l ≠ d →
      before? (ending ++ [l]) (init ++ [c] ++ [d]) = none := fun ending _ _ hne =>
    before?_concat_of_ne ending (init ++ [c]) hne
  have hself : ∀ ending : List Char, before? ending (init ++ [c] ++ ending) = some (init ++ [c]) :=
    fun ending => before?_append ending (init ++ [c])
  cases unit with
  | millis => simp only [readExact, units, readWith, TimeUnit.letters, hself]; rfl
  | seconds =>
    have hfirst : before? ['m', 's'] (init ++ [c] ++ ['s']) = none :=
      (before?_concat_self ['m'] (init ++ [c]) 's').trans hm
    simp only [readExact, units, readWith, TimeUnit.letters, hself, hfirst]
    rfl
  | minutes =>
    have hfirst : before? ['m', 's'] (init ++ [c] ++ ['m']) = none := hother ['m'] (by decide)
    have hsecond : before? ['s'] (init ++ [c] ++ ['m']) = none := hother [] (by decide)
    simp only [readExact, units, readWith, TimeUnit.letters, hself, hfirst, hsecond]
    rfl
  | hours =>
    have hfirst : before? ['m', 's'] (init ++ [c] ++ ['h']) = none := hother ['m'] (by decide)
    have hsecond : before? ['s'] (init ++ [c] ++ ['h']) = none := hother [] (by decide)
    have hthird : before? ['m'] (init ++ [c] ++ ['h']) = none := hother [] (by decide)
    simp only [readExact, units, readWith, TimeUnit.letters, hself, hfirst, hsecond, hthird]
    rfl
  | bare =>
    simp only [readExact, units, readWith, TimeUnit.letters, List.append_nil, hms, hs, hm, hh]
    rfl

theorem readWith_cases (units : List (List Char × (Nat → Span))) (cs : List Char) :
    (∃ unit ∈ units, ∃ count, cs = count ++ unit.1 ∧
      readWith units cs = readCount unit.2 count) ∨ readWith units cs = readCount ofSeconds cs := by
  induction units with
  | nil => exact .inr rfl
  | cons unit units ih =>
    rw [readWith]
    split
    · next count heq => exact .inl ⟨unit, by simp, count, before?_eq_some_iff.mp heq, rfl⟩
    · obtain ⟨later, hmem, hlater⟩ | hbare := ih
      · exact .inl ⟨later, List.mem_cons_of_mem unit hmem, hlater⟩
      · exact .inr hbare

theorem units_eq : units = [TimeUnit.millis, .seconds, .minutes, .hours].map
    fun unit => (unit.letters, unit.spanOf) := rfl

theorem readExact_cases (cs : List Char) : ∃ (unit : TimeUnit) (count : List Char),
    cs = count ++ unit.letters ∧ readExact cs = readCount unit.spanOf count := by
  obtain ⟨listed, hmem, count, heq, hcount⟩ | hbare := readWith_cases units cs
  · rw [units_eq] at hmem
    obtain ⟨unit, -, rfl⟩ := List.mem_map.mp hmem
    exact ⟨unit, count, heq, hcount⟩
  · exact ⟨.bare, cs, (List.append_nil cs).symm, hbare⟩

theorem readExact_of_large {unit : TimeUnit} {cs : List Char} {n : Nat} (h : unit.Counts cs n)
    (hlarge : max64 < n) : readExact cs = .error (.number .tooLarge) := by
  obtain ⟨count, rfl, hcount⟩ := h
  rw [readExact_append unit hcount, readCount, readNat_of_numeral hcount,
    if_neg (Nat.not_le.mpr hlarge)]

/-! ## One meaning -/

namespace TimeUnit

theorem not_isDigit_of_mem_letters (unit : TimeUnit) :
    ∀ l ∈ unit.letters, (!l.isDigit) = true := by
  cases unit <;> simp [letters]

theorem letters_injective {unit unit' : TimeUnit} (h : unit.letters = unit'.letters) :
    unit = unit' := by
  cases unit <;> cases unit' <;> first | rfl | exact absurd h (by decide)

/-- The letters of the unit are what stands behind the last digit. -/
theorem takeWhile_reverse {count : List Char} {n : Nat} (unit : TimeUnit)
    (hcount : IsNumeral count n) :
    (count ++ unit.letters).reverse.takeWhile (!·.isDigit) = unit.letters.reverse := by
  obtain ⟨init, c, rfl, hc⟩ := hcount.exists_concat
  have hletters : ∀ l ∈ unit.letters.reverse, (!l.isDigit) = true := fun l hl =>
    unit.not_isDigit_of_mem_letters l (List.mem_reverse.mp hl)
  rw [List.reverse_append, List.takeWhile_append_of_pos hletters]
  simp [hc]

/-- A text says one thing only. -/
theorem Counts.unique {unit unit' : TimeUnit} {cs : List Char} {n n' : Nat}
    (h : unit.Counts cs n) (h' : unit'.Counts cs n') : unit' = unit ∧ n' = n := by
  obtain ⟨count, rfl, hcount⟩ := h
  obtain ⟨count', heq, hcount'⟩ := h'
  have hletters : unit'.letters.reverse = unit.letters.reverse := by
    rw [← takeWhile_reverse unit' hcount', ← heq, takeWhile_reverse unit hcount]
  obtain rfl := letters_injective (List.reverse_inj.mp hletters)
  obtain rfl := List.append_cancel_right heq
  exact ⟨rfl, hcount'.unique hcount⟩

/-! ## Lengths -/

theorem inNanos_spanOf (unit : TimeUnit) (n : Nat) : (unit.spanOf n).inNanos = n * unit.nanos := by
  cases unit with
  | millis => simp only [inNanos, spanOf, ofMillis, nanos]; omega
  | seconds | bare => simp [inNanos, spanOf, ofSeconds, nanos]
  | minutes | hours => simp only [inNanos, spanOf, ofSeconds, nanos]; omega

theorem nanos_spanOf_lt (unit : TimeUnit) (n : Nat) : (unit.spanOf n).nanos < 1000000000 := by
  cases unit with
  | millis => simp only [spanOf, ofMillis]; omega
  | seconds | minutes | hours | bare => simp [spanOf, ofSeconds]

theorem seconds_spanOf_le_iff (unit : TimeUnit) (n : Nat) :
    (unit.spanOf n).seconds ≤ max64 ↔ n * unit.nanos < beyondWord := by
  have hnanos := unit.nanos_spanOf_lt n
  have hlength := unit.inNanos_spanOf n
  unfold inNanos at hlength
  unfold beyondWord
  omega

end TimeUnit

theorem readExact_of_fits {unit : TimeUnit} {cs : List Char} {n : Nat} (h : unit.Counts cs n)
    (hle : n ≤ max64) : readExact cs =
      if n * unit.nanos < beyondWord then .ok (unit.spanOf n) else .error .overflow := by
  obtain ⟨count, rfl, hcount⟩ := h
  simp only [readExact_append unit hcount, readCount, readNat_of_numeral hcount, if_pos hle,
    unit.seconds_spanOf_le_iff]

/-- What is not refused for its number is a count of 64 bits, and comes out by its seconds. -/
theorem exists_counts_of_readExact {cs : List Char} {r : Except Fault Span}
    (hread : readExact cs = r) (hnumber : ∀ fault, r ≠ .error (.number fault)) :
    ∃ (unit : TimeUnit) (n : Nat), unit.Counts cs n ∧ n ≤ max64 ∧
      r = if n * unit.nanos < beyondWord then .ok (unit.spanOf n) else .error .overflow := by
  obtain ⟨unit, count, heq, hcount⟩ := readExact_cases cs
  cases hdigits : readNat max64 count with
  | error fault =>
    rw [readCount, hdigits] at hcount
    exact absurd (hread.symm.trans hcount) (hnumber fault)
  | ok n =>
    obtain ⟨hnumeral, hle⟩ := readNat_eq_ok_iff.mp hdigits
    have hcounts : unit.Counts cs n := ⟨count, heq, hnumeral⟩
    exact ⟨unit, n, hcounts, hle, by rw [← hread, readExact_of_fits hcounts hle]⟩

/-- Seconds and nanoseconds within the second are told by the length. -/
theorem ext_of_inNanos {d d' : Span} (hd : d.nanos < 1000000000) (hd' : d'.nanos < 1000000000)
    (h : d.inNanos = d'.inNanos) : d = d' := by
  obtain ⟨seconds, nanos⟩ := d
  obtain ⟨seconds', nanos'⟩ := d'
  simp only [inNanos, Span.mk.injEq] at *
  omega

/-- **A text is read exactly if it fits, and then as what it says.** A text is read as a span
exactly if it is a count of some unit, the count has 64 bits and so have its seconds; the span is
then as long as the text says. A count of more bits is refused. Seconds of more bits are not: there
the program stops. A text says one thing at most. -/
theorem text_is_read_iff_fits (s : String) :
    (∀ d, readExact s.toList = .ok d ↔
      ∃ (unit : TimeUnit) (n : Nat), unit.Counts s.toList n ∧ n ≤ max64 ∧
        n * unit.nanos < beyondWord ∧ d.nanos < 1000000000 ∧ d.inNanos = n * unit.nanos) ∧
    (readExact s.toList = .error .overflow ↔
      ∃ (unit : TimeUnit) (n : Nat), unit.Counts s.toList n ∧ n ≤ max64 ∧
        beyondWord ≤ n * unit.nanos) ∧
    ∀ (unit : TimeUnit) (n : Nat), unit.Counts s.toList n →
      (∀ (unit' : TimeUnit) (n' : Nat), unit'.Counts s.toList n' → unit' = unit ∧ n' = n) ∧
      (max64 < n → readExact s.toList = .error (.number .tooLarge)) := by
  refine ⟨fun d => ⟨fun hread => ?_, ?_⟩, ⟨fun hread => ?_, ?_⟩, fun unit n hcounts => ?_⟩
  · obtain ⟨unit, n, hcounts, hle, heq⟩ := exists_counts_of_readExact hread nofun
    split at heq
    · next hfits =>
      cases heq
      exact ⟨unit, n, hcounts, hle, hfits, unit.nanos_spanOf_lt n, unit.inNanos_spanOf n⟩
    · cases heq
  · rintro ⟨unit, n, hcounts, hle, hfits, hnanos, hlength⟩
    rw [readExact_of_fits hcounts hle, if_pos hfits, Except.ok.injEq]
    exact ext_of_inNanos (unit.nanos_spanOf_lt n) hnanos
      ((unit.inNanos_spanOf n).trans hlength.symm)
  · obtain ⟨unit, n, hcounts, hle, heq⟩ := exists_counts_of_readExact hread nofun
    split at heq
    · cases heq
    · next hbeyond => exact ⟨unit, n, hcounts, hle, Nat.not_lt.mp hbeyond⟩
  · rintro ⟨unit, n, hcounts, hle, hbeyond⟩
    rw [readExact_of_fits hcounts hle, if_neg (Nat.not_lt.mpr hbeyond)]
  · exact ⟨fun unit' n' hcounts' => hcounts.unique hcounts', readExact_of_large hcounts⟩

/-- The least number of minutes whose seconds do not fit. -/
theorem long_minutes_overflow :
    TimeUnit.minutes.Counts "307445734561825861m".toList 307445734561825861 ∧
    307445734561825861 ≤ max64 ∧ max64 < 307445734561825861 * 60 ∧
    readExact "307445734561825861m".toList = .error .overflow :=
  ⟨⟨"307445734561825861".toList, by decide, [], "307445734561825861".toList, rfl, .inl rfl,
    by simp, by simp, by decide⟩, by decide, by decide, by decide⟩

end Span
end Gatehouse
