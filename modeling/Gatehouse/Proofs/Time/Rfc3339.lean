import Gatehouse.Proofs.Text.Decimal
import Gatehouse.Proofs.Time.Calendar
import Gatehouse.Time.Rfc3339

/-!
Instants as text. A clock shows the instants of the calendar, leap seconds as second 60 of a minute.
Those are the instants that texts name (`onClock_of_read`), and the text that is written for one of
them names it again, to the nanosecond (`read_write`); so an instant is read back exactly if a clock
can show it (`read?_render_iff`).
-/

namespace Gatehouse

/-- A clock can show the instant: it lies in the calendar, and if it is part of a leap second, that
ends a minute. -/
def Instant.OnClock (t : Instant) : Prop :=
  t.InCalendar ∧ (1000000000 ≤ t.nanos → t.seconds % 60 = 59)

instance (t : Instant) : Decidable t.OnClock := inferInstanceAs (Decidable (_ ∧ (_ → _)))

theorem Instant.ext_parts {t u : Instant} (hseconds : t.seconds = u.seconds)
    (hnanos : t.nanos = u.nanos) : t = u := by
  cases t
  cases u
  simp_all

namespace Rfc3339

open Text

/-! ## Numbers -/

/-- The text does not go on with a digit. -/
def Breaks (cs : List Char) : Prop := ∀ c ∈ cs.head?, c.isDigit = false

theorem digits?_append {width : Nat} {ds : List Char} (rest : List Char) (hne : ds ≠ [])
    (hdigits : ∀ c ∈ ds, c.isDigit = true) (hlength : ds.length ≤ width)
    (hends : ds.length = width ∨ Breaks rest)
    (hvalue : Nat.ofDigitChars 10 ds 0 ≤ 9223372036854775807) :
    digits? width (ds ++ rest) = some (Nat.ofDigitChars 10 ds 0, rest) := by
  have hrow : ((ds ++ rest).take width).takeWhile Char.isDigit = ds := by
    rw [List.take_append, List.take_of_length_le hlength,
      List.takeWhile_append_of_pos hdigits]
    rcases hends with hfull | hbreaks
    · simp [hfull]
    · cases rest with
      | nil => simp
      | cons c rest =>
        have hc : c.isDigit = false := hbreaks c rfl
        cases width - ds.length <;> simp [hc]
  simp only [digits?, hrow, readDigits_of_digits hdigits (Nat.zero_le _), if_pos hvalue,
    List.isEmpty_iff, hne, if_false, List.drop_left]

theorem skipBlank_digits {ds rest : List Char} (hne : ds ≠ [])
    (hdigits : ∀ c ∈ ds, c.isDigit = true) : skipBlank (ds ++ rest) = ds ++ rest := by
  obtain ⟨c, cs, rfl⟩ := List.exists_cons_of_ne_nil hne
  have hblank := isBlank_of_isDigit (hdigits c List.mem_cons_self)
  simp [skipBlank, hblank]

/-- A number in all its digits is read, if it lies between the bounds. -/
theorem number?_padNat {width low high n : Nat} (hwidth : 0 < width) (hn : n < 10 ^ width)
    (hmax : n ≤ 9223372036854775807) (hlow : low ≤ n) (hhigh : n ≤ high) (rest : List Char) :
    number? width low high (padNat width n ++ rest) = some (n, rest) := by
  have hlength := length_padNat hwidth hn
  have hdigits := digits?_append rest (padNat_ne_nil width n)
    (fun c hc => isDigit_of_mem_padNat c hc) (Nat.le_of_eq hlength) (.inl hlength)
    (by rwa [ofDigitChars_padNat])
  rw [ofDigitChars_padNat] at hdigits
  rw [number?, skipBlank_digits (padNat_ne_nil width n) isDigit_of_mem_padNat, hdigits]
  simp [hlow, hhigh]

theorem mark?_cons {c : Char} (h : isBlank c = false) (rest : List Char) :
    mark? c (c :: rest) = some rest := by
  simp [mark?, skipBlank, h, after?]

theorem year?_plus (cs : List Char) :
    year? ('+' :: cs) = (digits? cs.length cs).map fun r => ((r.1 : Int), r.2) := rfl

theorem year?_minus (cs : List Char) :
    year? ('-' :: cs) = (digits? cs.length cs).map fun r => (-(r.1 : Int), r.2) := rfl

/-- A year in digits is read to its end, whatever its sign. -/
theorem year?_writeYear {year : Int} (h : year.natAbs ≤ 9223372036854775807) {rest : List Char}
    (hrest : Breaks rest) : year? (writeYear year ++ rest) = some (year, rest) := by
  have hpad := fun (width : Nat) (hlength : (padNat 4 year.natAbs).length ≤ width) =>
    digits?_append rest (padNat_ne_nil 4 year.natAbs) isDigit_of_mem_padNat hlength (.inr hrest)
      (by rwa [ofDigitChars_padNat])
  simp only [ofDigitChars_padNat] at hpad
  unfold writeYear
  split
  · next hplain =>
    obtain ⟨hfrom, hto⟩ := hplain
    have hnat : year.toNat = year.natAbs := by omega
    have hlength : (padNat 4 year.natAbs).length = 4 := length_padNat (by decide) (by omega)
    obtain ⟨c, cs, hcons⟩ := List.exists_cons_of_ne_nil (padNat_ne_nil 4 year.natAbs)
    have hfirst : c ∈ padNat 4 year.natAbs := hcons ▸ List.mem_cons_self
    have hc : c.isDigit = true := isDigit_of_mem_padNat c hfirst
    have hread := hpad 4 (by rw [hlength])
    rw [hnat, year?, skipBlank_digits (padNat_ne_nil 4 year.natAbs) isDigit_of_mem_padNat]
    rw [hcons, List.cons_append] at hread ⊢
    split
    · next heq =>
      cases (List.cons.inj heq).1
      cases hc
    · next heq =>
      cases (List.cons.inj heq).1
      cases hc
    · rw [hread]
      simp only [Option.map_some, Option.some.injEq, Prod.mk.injEq, and_true]
      omega
  · next hsigned =>
    have hread := hpad (padNat 4 year.natAbs ++ rest).length (by simp)
    split
    · next hneg =>
      rw [List.cons_append, year?_minus, hread]
      simp only [Option.map_some, Option.some.injEq, Prod.mk.injEq, and_true]
      omega
    · next hpos =>
      rw [List.cons_append, year?_plus, hread]
      simp only [Option.map_some, Option.some.injEq, Prod.mk.injEq, and_true]
      omega

theorem fraction?_digits {width k : Nat} (hwidth : 0 < width) (hnine : width ≤ 9)
    (hk : k < 10 ^ width) {rest : List Char} (hrest : Breaks rest) :
    fraction? ('.' :: (padNat width k ++ rest)) = some (k * 10 ^ (9 - width), rest) := by
  have hlength := length_padNat hwidth hk
  have hlimit : k ≤ 9223372036854775807 := by
    have hpow : 10 ^ width ≤ 10 ^ 9 := Nat.pow_le_pow_right (by decide) hnine
    omega
  have hdigits := digits?_append rest (padNat_ne_nil width k) isDigit_of_mem_padNat
    (hlength ▸ hnine) (.inr hrest) (by rwa [ofDigitChars_padNat])
  rw [ofDigitChars_padNat] at hdigits
  have hdrop : rest.dropWhile Char.isDigit = rest := by
    cases rest with
    | nil => rfl
    | cons c rest => simp [hrest c rfl]
  simp only [fraction?, hdigits, Option.bind_eq_bind, Option.bind_some, List.length_append,
    hlength, Nat.add_sub_cancel, hdrop]
  rfl

/-- Whatever number of digits a fraction is written in, it comes back to the nanosecond. -/
theorem fraction?_writeFraction {nanos : Nat} (h : nanos < 1000000000) :
    fraction? (writeFraction nanos ++ ['Z']) = some (nanos, ['Z']) := by
  have hz : Breaks ['Z'] := by
    rintro c ⟨⟩
    rfl
  unfold writeFraction
  split
  · next hnone =>
    subst hnone
    rfl
  split
  · next hmillis =>
    rw [List.cons_append, fraction?_digits (by decide) (by decide) (by omega) hz]
    simp only [Option.some.injEq, Prod.mk.injEq, and_true]
    omega
  split
  · next hmicros =>
    rw [List.cons_append, fraction?_digits (by decide) (by decide) (by omega) hz]
    simp only [Option.some.injEq, Prod.mk.injEq, and_true]
    omega
  · rw [List.cons_append, fraction?_digits (by decide) (by decide) (by omega) hz]
    simp

/-! ## Reading -/

/-- The instant at which a clock that is `offset` seconds ahead of UTC shows a date and a time. -/
def instantOf (date : Date) (hour minute second nanos : Nat) (offset : Int) : Instant :=
  Instant.ofParts
    (date.toDays * 86400 + ((hour * 60 + minute) * 60 + min second 59 : Nat) - offset)
    (if second = 60 then nanos + 1000000000 else nanos)

/-- The text names a date and a time of day, in this order, and how far ahead of UTC its clock
is. -/
inductive Names (cs : List Char) (date : Date) (hour minute second nanos : Nat) (offset : Int) :
    Prop where
  | mk {c₁ c₂ c₃ c₄ c₅ c₆ c₇ c₈ c₉ c₁₀ c₁₁ c₁₂ : List Char} {sep : Char}
    (year : year? cs = some (date.year, c₁)) (dash : mark? '-' c₁ = some c₂)
    (month : number? 2 1 12 c₂ = some (date.month, c₃)) (dash' : mark? '-' c₃ = some c₄)
    (day : number? 2 1 31 c₄ = some (date.day, sep :: c₅))
    (time : sep = 'T' ∨ sep = 't' ∨ sep = ' ')
    (hour : number? 2 0 23 c₅ = some (hour, c₆)) (colon : mark? ':' c₆ = some c₇)
    (minute : number? 2 0 59 c₇ = some (minute, c₈)) (colon' : mark? ':' c₈ = some c₉)
    (second : number? 2 0 60 c₉ = some (second, c₁₀))
    (fraction : fraction? c₁₀ = some (nanos, c₁₁))
    (zone : zone? (skipBlank c₁₁) = some (offset, c₁₂)) (ends : (skipBlank c₁₂).isEmpty = true)

theorem read_eq_some_iff {cs : List Char} {t : Instant} :
    read cs = some t ↔ ∃ date hour minute second nanos offset,
      Names cs date hour minute second nanos offset ∧ date.IsValid ∧ offset.natAbs < 86400 ∧
        t = instantOf date hour minute second nanos offset ∧ t.InCalendar := by
  constructor
  · intro h
    rw [read] at h
    obtain ⟨⟨year, c₁⟩, hyear, h⟩ := Option.bind_eq_some_iff.mp h
    obtain ⟨c₂, hdash, h⟩ := Option.bind_eq_some_iff.mp h
    obtain ⟨⟨month, c₃⟩, hmonth, h⟩ := Option.bind_eq_some_iff.mp h
    obtain ⟨c₄, hdash', h⟩ := Option.bind_eq_some_iff.mp h
    obtain ⟨⟨day, c₅⟩, hday, h⟩ := Option.bind_eq_some_iff.mp h
    dsimp only at h
    split at h
    · next sep c₅ =>
      split at h
      · next htime =>
        obtain ⟨c₅, hc₅, h⟩ := Option.bind_eq_some_iff.mp h
        cases hc₅
        obtain ⟨⟨hour, c₆⟩, hhour, h⟩ := Option.bind_eq_some_iff.mp h
        obtain ⟨c₇, hcolon, h⟩ := Option.bind_eq_some_iff.mp h
        obtain ⟨⟨minute, c₈⟩, hminute, h⟩ := Option.bind_eq_some_iff.mp h
        obtain ⟨c₉, hcolon', h⟩ := Option.bind_eq_some_iff.mp h
        obtain ⟨⟨second, c₁₀⟩, hsecond, h⟩ := Option.bind_eq_some_iff.mp h
        obtain ⟨⟨nanos, c₁₁⟩, hfraction, h⟩ := Option.bind_eq_some_iff.mp h
        obtain ⟨⟨offset, c₁₂⟩, hzone, h⟩ := Option.bind_eq_some_iff.mp h
        obtain ⟨⟨hvalid, hoffset, hin, hends⟩, ht⟩ := Option.ite_none_right_eq_some.mp h
        cases ht
        exact ⟨⟨year, month, day⟩, hour, minute, second, nanos, offset,
          .mk hyear hdash hmonth hdash' hday htime hhour hcolon hminute hcolon' hsecond hfraction
            hzone hends, hvalid, hoffset, rfl, hin⟩
      · cases h
    · cases h
  · rintro ⟨date, hour, minute, second, nanos, offset, ⟨hyear, hdash, hmonth, hdash', hday, htime,
      hhour, hcolon, hminute, hcolon', hsecond, hfraction, hzone, hends⟩, hvalid, hoffset, rfl, hin⟩
    rw [read]
    refine Option.bind_eq_some_iff.mpr ⟨_, hyear, ?_⟩
    refine Option.bind_eq_some_iff.mpr ⟨_, hdash, ?_⟩
    refine Option.bind_eq_some_iff.mpr ⟨_, hmonth, ?_⟩
    refine Option.bind_eq_some_iff.mpr ⟨_, hdash', ?_⟩
    refine Option.bind_eq_some_iff.mpr ⟨_, hday, ?_⟩
    dsimp only
    rw [if_pos htime]
    refine Option.bind_eq_some_iff.mpr ⟨_, rfl, ?_⟩
    refine Option.bind_eq_some_iff.mpr ⟨_, hhour, ?_⟩
    refine Option.bind_eq_some_iff.mpr ⟨_, hcolon, ?_⟩
    refine Option.bind_eq_some_iff.mpr ⟨_, hminute, ?_⟩
    refine Option.bind_eq_some_iff.mpr ⟨_, hcolon', ?_⟩
    refine Option.bind_eq_some_iff.mpr ⟨_, hsecond, ?_⟩
    refine Option.bind_eq_some_iff.mpr ⟨_, hfraction, ?_⟩
    refine Option.bind_eq_some_iff.mpr ⟨_, hzone, ?_⟩
    exact if_pos ⟨hvalid, hoffset, hin, hends⟩

/-! ## Written instants -/

theorem write_eq (t : Instant) {rest : Nat} (hrest : (rest : Int) = t.seconds % 86400) :
    write t =
      writeYear (Date.ofDays (t.seconds / 86400)).year ++
        '-' :: (padNat 2 (Date.ofDays (t.seconds / 86400)).month ++
        '-' :: (padNat 2 (Date.ofDays (t.seconds / 86400)).day ++
        'T' :: (padNat 2 (rest / 3600) ++ ':' :: (padNat 2 (rest / 60 % 60) ++
        ':' :: (padNat 2 (rest % 60 + if 1000000000 ≤ t.nanos then 1 else 0) ++
        (writeFraction (if 1000000000 ≤ t.nanos then t.nanos - 1000000000 else t.nanos) ++
        ['Z'])))))) := by
  have hnat : (t.seconds % 86400).toNat = rest := by omega
  simp only [write, writeDateTime, hnat, List.append_assoc, List.cons_append]

theorem isValid_date {t : Instant} (h : t.InCalendar) :
    (Date.ofDays (t.seconds / 86400)).IsValid := by
  obtain ⟨hfrom, hto⟩ := h
  unfold Instant.firstSecond at hfrom
  unfold Instant.lastSecond at hto
  exact Date.isValid_ofDays (by omega) (by omega)

theorem day_le {date : Date} (h : date.IsValid) : date.day ≤ 31 := by
  obtain ⟨-, -, -, -, -, hday⟩ := h
  refine Nat.le_trans hday ?_
  unfold Date.daysInMonth
  repeat' split
  all_goals decide

theorem breaks_cons {c : Char} (h : c.isDigit = false) (cs : List Char) : Breaks (c :: cs) := by
  rintro d ⟨⟩
  exact h

theorem number?_two {low high n : Nat} (hlow : low ≤ n) (hhigh : n ≤ high) (hmax : high ≤ 99)
    (rest : List Char) : number? 2 low high (padNat 2 n ++ rest) = some (n, rest) :=
  number?_padNat (by decide) (by omega) (by omega) hlow hhigh rest

theorem seconds_instantOf (date : Date) (hour minute second nanos : Nat) (offset : Int) :
    (instantOf date hour minute second nanos offset).seconds =
      date.toDays * 86400 + ((hour * 60 + minute) * 60 + min second 59 : Nat) - offset := rfl

theorem nanos_instantOf (date : Date) (hour minute second nanos : Nat) (offset : Int) :
    (instantOf date hour minute second nanos offset).nanos =
      min (if second = 60 then nanos + 1000000000 else nanos) 1999999999 := rfl

/-- A clock at UTC that shows what is written shows the instant. -/
theorem eq_instantOf {t : Instant} {date : Date} {rest second nanos : Nat}
    (hrest : (rest : Int) = t.seconds % 86400) (hdays : date.toDays = t.seconds / 86400)
    (hsecond : second = rest % 60 + if 1000000000 ≤ t.nanos then 1 else 0)
    (hfraction : nanos = if 1000000000 ≤ t.nanos then t.nanos - 1000000000 else t.nanos)
    (hleap : 1000000000 ≤ t.nanos → t.seconds % 60 = 59) :
    t = instantOf date (rest / 3600) (rest / 60 % 60) second nanos 0 := by
  have hnanos := t.nanos_lt
  by_cases hlate : 1000000000 ≤ t.nanos
  · have hlast := hleap hlate
    rw [if_pos hlate] at hsecond hfraction
    have hsixty : second = 60 := by omega
    have hwhole : nanos + 1000000000 = t.nanos := by omega
    refine Instant.ext_parts ?_ ?_
    · rw [seconds_instantOf, hdays]
      omega
    · rw [nanos_instantOf, if_pos hsixty, hwhole]
      omega
  · rw [if_neg hlate] at hsecond hfraction
    have hsixty : second ≠ 60 := by omega
    refine Instant.ext_parts ?_ ?_
    · rw [seconds_instantOf, hdays]
      omega
    · rw [nanos_instantOf, if_neg hsixty, hfraction]
      omega

/-- **A written instant is read back to the nanosecond.** -/
theorem read_write {t : Instant} (h : t.OnClock) : read (write t) = some t := by
  obtain ⟨hcalendar, hleap⟩ := h
  have hnanos := t.nanos_lt
  obtain ⟨rest, hrest⟩ : ∃ rest : Nat, (rest : Int) = t.seconds % 86400 :=
    ⟨(t.seconds % 86400).toNat, by omega⟩
  obtain ⟨second, hsecond⟩ : ∃ second, second = rest % 60 + if 1000000000 ≤ t.nanos then 1 else 0 :=
    ⟨_, rfl⟩
  obtain ⟨nanos, hfraction⟩ :
      ∃ nanos, nanos = if 1000000000 ≤ t.nanos then t.nanos - 1000000000 else t.nanos := ⟨_, rfl⟩
  have hvalid := isValid_date hcalendar
  have hdays := Date.toDays_ofDays (t.seconds / 86400)
  rw [write_eq t hrest, ← hsecond, ← hfraction, read_eq_some_iff]
  generalize Date.ofDays (t.seconds / 86400) = date at hvalid hdays
  obtain ⟨hyear, hyear', hmonth, hmonth', hday, -⟩ := id hvalid
  have hyears : date.year.natAbs ≤ 9223372036854775807 := by
    unfold Date.firstYear at hyear
    unfold Date.lastYear at hyear'
    omega
  have hclock : second ≤ 60 ∧ nanos < 1000000000 := by
    rw [hsecond, hfraction]
    split <;> omega
  have ht := eq_instantOf hrest hdays hsecond hfraction hleap
  refine ⟨date, rest / 3600, rest / 60 % 60, second, nanos, 0, ?_, hvalid, by decide, ht,
    hcalendar⟩
  exact .mk (year?_writeYear hyears (breaks_cons (by decide) _)) (mark?_cons (by decide) _)
    (number?_two hmonth hmonth' (by decide) _) (mark?_cons (by decide) _)
    (number?_two hday (day_le hvalid) (by decide) _) (.inl rfl)
    (number?_two (Nat.zero_le _) (by omega) (by decide) _) (mark?_cons (by decide) _)
    (number?_two (Nat.zero_le _) (by omega) (by decide) _) (mark?_cons (by decide) _)
    (number?_two (Nat.zero_le _) hclock.1 (by decide) _) (fraction?_writeFraction hclock.2) rfl rfl

/-! ## Instants that are read -/

theorem exists_of_digits? {width n : Nat} {cs rest : List Char}
    (h : digits? width cs = some (n, rest)) :
    ∃ ds : List Char, cs = ds ++ rest ∧ ds.length ≤ width ∧ n < 10 ^ ds.length := by
  obtain ⟨ds, hds⟩ : ∃ ds, (cs.take width).takeWhile Char.isDigit = ds := ⟨_, rfl⟩
  have hstart : ds <+: cs := hds ▸ (List.takeWhile_prefix _).trans (List.take_prefix width cs)
  have hlength : ds.length ≤ width := by
    rw [← hds]
    exact Nat.le_trans (List.takeWhile_prefix _).length_le (List.length_take_le width cs)
  obtain ⟨more, rfl⟩ := hstart
  simp only [digits?, hds] at h
  split at h
  · next m hm =>
    split at h
    · cases h
    · cases h
      obtain ⟨rfl, -⟩ := value_of_readDigits hm
      exact ⟨ds, by rw [List.drop_left], hlength, ofDigitChars_lt (isDigit_of_readDigits hm)⟩
  · cases h

theorem fraction?_lt {cs rest : List Char} {n : Nat} (h : fraction? cs = some (n, rest)) :
    n < 1000000000 := by
  unfold fraction? at h
  split at h
  · next cs =>
    obtain ⟨⟨k, more⟩, hk, h⟩ := Option.bind_eq_some_iff.mp h
    cases h
    obtain ⟨ds, rfl, hlength, hlt⟩ := exists_of_digits? hk
    have hwidth : (ds ++ more).length - more.length = ds.length := by simp
    rw [hwidth]
    calc k * 10 ^ (9 - ds.length)
        < 10 ^ ds.length * 10 ^ (9 - ds.length) := Nat.mul_lt_mul_of_pos_right hlt (by positivity)
      _ = 10 ^ 9 := by rw [← Nat.pow_add, Nat.add_sub_cancel' hlength]
      _ = 1000000000 := by decide
  · cases h
    decide

/-- Clocks differ by whole minutes. -/
theorem offset?_minutes {cs rest : List Char} {offset : Int}
    (h : offset? cs = some (offset, rest)) : offset % 60 = 0 := by
  unfold offset? at h
  split at h
  · cases h
    rfl
  · cases h
    rfl
  · dsimp only at h
    -- whatever stands for the sign
    split at h
    case' isFalse => split at h
    all_goals
      obtain ⟨sign, -, h⟩ := Option.bind_eq_some_iff.mp h
      obtain ⟨h1, -, h⟩ := Option.bind_eq_some_iff.mp h
      obtain ⟨h2, -, h⟩ := Option.bind_eq_some_iff.mp h
      split at h
      · obtain ⟨m1, -, h⟩ := Option.bind_eq_some_iff.mp h
        obtain ⟨m2, -, h⟩ := Option.bind_eq_some_iff.mp h
        obtain ⟨-, h⟩ := Option.ite_none_right_eq_some.mp h
        cases h
        have hminutes : (60 : Int) ∣ ((h1 * 10 + h2) * 3600 + (m1 * 10 + m2) * 60 : Nat) := by omega
        exact Int.emod_eq_zero_of_dvd (hminutes.mul_left sign)
      · cases h
  · cases h

theorem zone?_minutes {cs rest : List Char} {offset : Int} (h : zone? cs = some (offset, rest)) :
    offset % 60 = 0 := by
  unfold zone? at h
  split at h
  · cases h
    rfl
  · exact offset?_minutes h

/-- What is read is an instant that a clock can show. -/
theorem onClock_of_read {cs : List Char} {t : Instant} (h : read cs = some t) : t.OnClock := by
  obtain ⟨date, hour, minute, second, nanos, offset, ⟨_, _, _, _, _, _, _, _, _, _, _, hfraction,
    hzone, _⟩, -, -, ht, hin⟩ := read_eq_some_iff.mp h
  refine ⟨hin, fun hlate => ?_⟩
  have hnanos := fraction?_lt hfraction
  have hoffset := zone?_minutes hzone
  rw [ht, nanos_instantOf] at hlate
  rw [ht, seconds_instantOf]
  by_cases hsixty : second = 60
  · omega
  · rw [if_neg hsixty] at hlate
    omega

/-- **An instant is read back from its text exactly if a clock can show it.** -/
theorem read?_render_iff (t : Instant) : read? (render t) = some t ↔ t.OnClock := by
  rw [read?, render, String.toList_ofList]
  exact ⟨onClock_of_read, read_write⟩

end Rfc3339
end Gatehouse
