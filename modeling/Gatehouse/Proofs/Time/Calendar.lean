import Gatehouse.Time.Calendar

/-!
Days counted as dates. A cycle of 146097 days is four centuries, the last of them a day longer; a
century is 25 groups of four years, the last of them a day shorter unless it ends the cycle. Taken
apart that way (`CycleDay`), every count of days leads to a date that exists
(`isValid_ofDays`) and that counts as many days (`toDays_ofDays`).
-/

namespace Gatehouse.Date

/-- The day `n` of a cycle, from 0 on, is day `d` of year `a` in group `q` of century `c`. Only a
leap year has a day 365, and it ends its group. -/
structure CycleDay (n c q a d : Int) : Prop where
  sum : n = 36524 * c + 1461 * q + 365 * a + d
  century : 0 ≤ c ∧ c ≤ 3
  group : 0 ≤ q ∧ q ≤ 24
  year : 0 ≤ a ∧ a ≤ 3
  day : 0 ≤ d ∧ d ≤ 365
  leap : d = 365 → a = 3 ∧ (q = 24 → c = 3)

variable {n era c q a d : Int}

theorem exists_cycleDay (hn : 0 ≤ n) (hlt : n < 146097) : ∃ c q a d, CycleDay n c q a d := by
  obtain ⟨c, hc⟩ : ∃ c, c = min (n / 36524) 3 := ⟨_, rfl⟩
  obtain ⟨r, hr⟩ : ∃ r, r = n - 36524 * c := ⟨_, rfl⟩
  obtain ⟨q, hq⟩ : ∃ q, q = r / 1461 := ⟨_, rfl⟩
  obtain ⟨s, hs⟩ : ∃ s, s = r - 1461 * q := ⟨_, rfl⟩
  obtain ⟨a, ha⟩ : ∃ a, a = min (s / 365) 3 := ⟨_, rfl⟩
  have hcentury : 0 ≤ c ∧ c ≤ 3 ∧ 0 ≤ r ∧ r ≤ 36524 ∧ (r = 36524 → c = 3) := by omega
  have hgroup : 0 ≤ q ∧ q ≤ 24 ∧ 0 ≤ s ∧ s ≤ 1460 ∧ (s = 1460 → q = 24 → r = 36524) := by omega
  refine ⟨c, q, a, s - 365 * a, ?_, ?_, ?_, ?_, ?_, ?_⟩ <;> omega

/-- The quotients by which the year of a cycle is found make up for its leap days. -/
theorem CycleDay.yearOfEra (h : CycleDay n c q a d) :
    (n - n / 1460 + n / 36524 - n / 146096) / 365 = 100 * c + 4 * q + a := by
  obtain ⟨hsum, hc, hq, ha, hd, hleap⟩ := h
  have hrest : 1461 * q + 365 * a + d ≤ 36524 ∧ (1461 * q + 365 * a + d = 36524 → c = 3) := by
    omega
  have hcenturies : n / 36524 - n / 146096 = c := by
    by_cases hend : 1461 * q + 365 * a + d = 36524
    · -- the last day of the cycle, which would start a fifth century
      obtain rfl := hrest.2 hend
      omega
    · have hdiv : n / 36524 = c := by omega
      omega
  have hgroups : n / 1460 = 25 * c + q + (24 * c + q + 365 * a + d) / 1460 := by omega
  omega

theorem div_four (ha : 0 ≤ a ∧ a ≤ 3) : (100 * c + 4 * q + a) / 4 = 25 * c + q := by omega

theorem div_hundred (hq : 0 ≤ q ∧ q ≤ 24) (ha : 0 ≤ a ∧ a ≤ 3) :
    (100 * c + 4 * q + a) / 100 = c := by omega

theorem CycleDay.dayOfYear (h : CycleDay n c q a d) :
    n - (365 * (100 * c + 4 * q + a) + (100 * c + 4 * q + a) / 4 - (100 * c + 4 * q + a) / 100) =
      d := by
  rw [div_four h.year, div_hundred h.group h.year, h.sum]
  omega

/-- The months of a year that starts with March, the days of the month counted from 0. -/
theorem monthOfYear_spec {m e : Int} (hd : 0 ≤ d ∧ d ≤ 365) (hm : (5 * d + 2) / 153 = m)
    (he : d - (153 * m + 2) / 5 = e) :
    0 ≤ m ∧ m ≤ 11 ∧ (10 ≤ m ↔ 306 ≤ d) ∧ 0 ≤ e ∧ e ≤ 30 ∧
      (m = 1 ∨ m = 3 ∨ m = 6 ∨ m = 8 → e ≤ 29) ∧ (m = 11 → e = d - 337) := by
  omega

/-! ## Dates -/

/-- The date of a day of a cycle. -/
def ofCycle (era c q a d : Int) : Date :=
  let m := (5 * d + 2) / 153
  let month := if m < 10 then m + 3 else m - 9
  ⟨100 * c + 4 * q + a + era * 400 + (if month ≤ 2 then 1 else 0), month.toNat,
    (d - (153 * m + 2) / 5 + 1).toNat⟩

theorem exists_ofDays (days : Int) : ∃ c q a d,
    CycleDay ((days + 719468) % 146097) c q a d ∧
      ofDays days = ofCycle ((days + 719468) / 146097) c q a d := by
  obtain ⟨c, q, a, d, h⟩ := exists_cycleDay (n := (days + 719468) % 146097) (by omega) (by omega)
  refine ⟨c, q, a, d, h, ?_⟩
  simp only [ofDays, h.yearOfEra, h.dayOfYear]
  rfl

/-- From March to December the year is the one counted, in January and February the next one. -/
theorem ofCycle_cases (era c q a : Int) (hd : 0 ≤ d ∧ d ≤ 365) :
    ∃ m e : Int, (5 * d + 2) / 153 = m ∧ d - (153 * m + 2) / 5 = e ∧
      (m ≤ 9 ∧ ofCycle era c q a d =
          ⟨100 * c + 4 * q + a + era * 400, (m + 3).toNat, (e + 1).toNat⟩ ∨
        10 ≤ m ∧ ofCycle era c q a d =
          ⟨100 * c + 4 * q + a + era * 400 + 1, (m - 9).toNat, (e + 1).toNat⟩) := by
  obtain ⟨m, hm⟩ : ∃ m, (5 * d + 2) / 153 = m := ⟨_, rfl⟩
  obtain ⟨h0, h11, -⟩ := monthOfYear_spec hd hm rfl
  refine ⟨m, _, hm, rfl, ?_⟩
  rcases Int.lt_or_le m 10 with hspring | hwinter
  · have hmonth : ¬ m + 3 ≤ 2 := by omega
    exact .inl ⟨by omega, by
      simp only [ofCycle, hm, if_pos hspring, if_neg hmonth, Int.add_zero]⟩
  · have hlate : ¬ m < 10 := by omega
    have hmonth : m - 9 ≤ 2 := by omega
    exact .inr ⟨hwinter, by simp only [ofCycle, hm, if_neg hlate, if_pos hmonth]⟩

theorem toDays_ofCycle (h : CycleDay n c q a d) :
    toDays (ofCycle era c q a d) = era * 146097 + n - 719468 := by
  have hera : (100 * c + 4 * q + a + era * 400) / 400 = era := by
    obtain ⟨-, hc, hq, ha, -, -⟩ := h
    omega
  have hyear : (100 * c + 4 * q + a + era * 400) % 400 = 100 * c + 4 * q + a := by
    obtain ⟨-, hc, hq, ha, -, -⟩ := h
    omega
  obtain ⟨m, e, hm, he, ⟨hspring, heq⟩ | ⟨hwinter, heq⟩⟩ := ofCycle_cases era c q a h.day
  · obtain ⟨h0, -, -, he0, -⟩ := monthOfYear_spec h.day hm he
    have hmonth : ¬ (m + 3).toNat ≤ 2 := by omega
    have hback : ((m + 3).toNat : Int) - 3 = m := by omega
    have hday : ((e + 1).toNat : Int) = e + 1 := by omega
    simp only [heq, toDays, if_neg hmonth, hback, hday, hera, hyear, div_four h.year,
      div_hundred h.group h.year, h.sum]
    omega
  · obtain ⟨-, h11, -, he0, -⟩ := monthOfYear_spec h.day hm he
    have hmonth : (m - 9).toNat ≤ 2 := by omega
    have hback : ((m - 9).toNat : Int) + 9 = m := by omega
    have hday : ((e + 1).toNat : Int) = e + 1 := by omega
    simp only [heq, toDays, if_pos hmonth, hback, hday, Int.add_sub_cancel, hera, hyear,
      div_four h.year, div_hundred h.group h.year, h.sum]
    omega

/-- **A date counts the days that it was made from.** -/
theorem toDays_ofDays (days : Int) : toDays (ofDays days) = days := by
  obtain ⟨c, q, a, d, h, heq⟩ := exists_ofDays days
  rw [heq, toDays_ofCycle h]
  omega

theorem isLeapYear_of_day (h : CycleDay n c q a 365) :
    isLeapYear (100 * c + 4 * q + a + era * 400 + 1) = true := by
  obtain ⟨-, hc, hq, ha, -, hleap⟩ := h
  obtain ⟨rfl, hlast⟩ := hleap rfl
  simp only [isLeapYear, decide_eq_true_eq]
  omega

theorem ofCycle_day (h : CycleDay n c q a d) :
    1 ≤ (ofCycle era c q a d).month ∧ (ofCycle era c q a d).month ≤ 12 ∧
      1 ≤ (ofCycle era c q a d).day ∧
      (ofCycle era c q a d).day ≤
        daysInMonth (ofCycle era c q a d).year (ofCycle era c q a d).month := by
  obtain ⟨m, e, hm, he, ⟨hspring, heq⟩ | ⟨hwinter, heq⟩⟩ := ofCycle_cases era c q a h.day
  · obtain ⟨h0, -, -, he0, he30, hshort, -⟩ := monthOfYear_spec h.day hm he
    rw [heq]
    refine ⟨by dsimp only; omega, by dsimp only; omega, by dsimp only; omega, ?_⟩
    dsimp only
    rw [daysInMonth, if_neg (by omega)]
    split <;> omega
  · obtain ⟨-, h11, -, he0, he30, -, hfebruary⟩ := monthOfYear_spec h.day hm he
    have hd := h.day
    rw [heq]
    refine ⟨by dsimp only; omega, by dsimp only; omega, by dsimp only; omega, ?_⟩
    dsimp only
    rcases Int.lt_or_le m 11 with hjanuary | hlast
    · rw [daysInMonth, if_neg (by omega), if_neg (by omega)]
      omega
    · rw [daysInMonth, if_pos (by omega)]
      split
      · omega
      · next hcommon =>
        have hshort : d ≠ 365 := by
          rintro rfl
          exact hcommon (isLeapYear_of_day h)
        omega

/-- The days before a year that starts with March, from the start of the cycles on. -/
def daysBefore (y : Int) : Int := 365 * y + y / 4 - y / 100 + y / 400

theorem lt_of_daysBefore_lt {y y' : Int} (h : daysBefore y < daysBefore y') : y < y' := by
  simp only [daysBefore] at h
  omega

theorem daysBefore_cycleDay (era : Int) (h : CycleDay n c q a d) :
    daysBefore (100 * c + 4 * q + a + era * 400) = era * 146097 + n - d := by
  obtain ⟨hsum, hc, hq, ha, -, -⟩ := h
  have hfours : (100 * c + 4 * q + a + era * 400) / 4 = 25 * c + q + 100 * era := by omega
  have hhundreds : (100 * c + 4 * q + a + era * 400) / 100 = c + 4 * era := by omega
  have hcycles : (100 * c + 4 * q + a + era * 400) / 400 = era := by omega
  rw [daysBefore, hfours, hhundreds, hcycles]
  omega

theorem ofCycle_year (h : CycleDay n c q a d)
    (hfrom : toDays ⟨firstYear, 1, 1⟩ ≤ era * 146097 + n - 719468)
    (hto : era * 146097 + n - 719468 ≤ toDays ⟨lastYear, 12, 31⟩) :
    firstYear ≤ (ofCycle era c q a d).year ∧ (ofCycle era c q a d).year ≤ lastYear := by
  have hfirst : toDays ⟨firstYear, 1, 1⟩ = -96465292 := by decide
  have hlast : toDays ⟨lastYear, 12, 31⟩ = 95026236 := by decide
  have hd := h.day
  have hbefore := daysBefore_cycleDay era h
  obtain ⟨y, hy⟩ : ∃ y, 100 * c + 4 * q + a + era * 400 = y := ⟨_, rfl⟩
  rw [hy] at hbefore
  -- the years counted from March that the calendar begins and ends in are not whole
  have hlow : -262145 < y := lt_of_daysBefore_lt <| by
    rw [hbefore, show daysBefore (-262145) = -95746496 by decide]
    omega
  have hhigh : y < 262143 := lt_of_daysBefore_lt <| by
    rw [hbefore, show daysBefore 262143 = 95745764 by decide]
    omega
  have hstart : y = -262144 → 306 ≤ d := by
    rintro rfl
    rw [show daysBefore (-262144) = -95746130 by decide] at hbefore
    omega
  have hend : y = 262142 → d < 306 := by
    rintro rfl
    rw [show daysBefore 262142 = 95745399 by decide] at hbefore
    omega
  simp only [firstYear, lastYear]
  obtain ⟨m, e, hm, he, ⟨hspring, heq⟩ | ⟨hwinter, heq⟩⟩ := ofCycle_cases era c q a h.day
  all_goals
    obtain ⟨-, -, hmarch, -⟩ := monthOfYear_spec h.day hm he
    rw [heq, hy]
    dsimp only
    omega

/-- **Days of the calendar are dates that exist.** -/
theorem isValid_ofDays {days : Int} (hfrom : toDays ⟨firstYear, 1, 1⟩ ≤ days)
    (hto : days ≤ toDays ⟨lastYear, 12, 31⟩) : (ofDays days).IsValid := by
  obtain ⟨c, q, a, d, h, heq⟩ := exists_ofDays days
  have hdays : (days + 719468) / 146097 * 146097 + (days + 719468) % 146097 - 719468 = days := by
    omega
  obtain ⟨hyear, hyear'⟩ := ofCycle_year h (hdays.symm ▸ hfrom) (hdays.symm ▸ hto)
  rw [heq]
  exact ⟨hyear, hyear', ofCycle_day h⟩

end Gatehouse.Date
