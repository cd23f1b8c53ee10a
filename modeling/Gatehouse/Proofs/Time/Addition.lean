import Gatehouse.Time.Instant

/-!
Adding a span to an instant. The sum lies in the second that whole nanoseconds give
(`Instant.seconds_of_add?`), it is there exactly if that second is one of the calendar
(`Instant.add?_eq_none_iff`), and its second is a later one than that of the instant if and only if
the span outlasts the latter (`Instant.seconds_lt_secondAfter_iff`). A leap second counts as the
second it prolongs. Whole seconds are added exactly or not at all (`Instant.addSeconds?_eq_none_iff`,
`Instant.part_of_addSeconds?`).
-/

namespace Gatehouse

/-- Nanoseconds. -/
def Span.toNanos (d : Span) : Nat := d.seconds * 1000000000 + d.nanos

namespace Instant

variable {t later : Instant} {d : Span}

/-- Nanoseconds from the start of 1970. -/
def toNanos (t : Instant) : Int := t.seconds * 1000000000 + t.nanos

/-- The start of the second in which a span from an instant on ends. -/
def endSecond (t : Instant) (d : Span) : Instant :=
  ⟨(t.toNanos + d.toNanos) / 1000000000, 0, by decide⟩

/-- The second in which a span from an instant on ends, leap seconds included. -/
def secondAfter (t : Instant) (d : Span) : Int :=
  t.seconds + ((t.nanos % 1000000000 + d.toNanos) / 1000000000 : Nat)

theorem secondAfter_eq (ht : t.nanos < 1000000000) : t.secondAfter d = (t.endSecond d).seconds := by
  show _ = (t.toNanos + d.toNanos) / 1000000000
  unfold secondAfter toNanos
  omega

/-- The sum, in the calendar or not. No leap second is reached but by staying in one. -/
theorem exists_sum (t : Instant) (d : Span) :
    ∃ sum : Instant, sum.seconds = t.secondAfter d ∧
      sum.nanos % 1000000000 = (t.nanos + d.nanos) % 1000000000 ∧
      sum.nanos / 1000000000 ≤ t.nanos / 1000000000 ∧
      t.add? d = if sum.InCalendar then some sum else none := by
  by_cases hstays :
      1000000000 ≤ t.nanos ∧ d.seconds = 0 ∧ t.nanos + d.nanos < 2000000000
  · refine ⟨ofParts t.seconds (t.nanos + d.nanos), ?_, ?_, ?_, by rw [add?, if_pos hstays]⟩
    all_goals
      simp only [ofParts, secondAfter, Span.toNanos]
      omega
  · refine ⟨ofParts (t.seconds + d.seconds + ((t.nanos % 1000000000 + d.nanos) / 1000000000 : Nat))
      ((t.nanos % 1000000000 + d.nanos) % 1000000000), ?_, ?_, ?_, by rw [add?, if_neg hstays]⟩
    all_goals
      simp only [ofParts, secondAfter, Span.toNanos]
      omega

theorem add?_eq_none_iff :
    t.add? d = none ↔ ¬ (firstSecond ≤ t.secondAfter d ∧ t.secondAfter d ≤ lastSecond) := by
  obtain ⟨sum, hseconds, -, -, hadd⟩ := exists_sum t d
  rw [hadd, ← hseconds]
  exact ite_eq_right_iff.trans (by simp [InCalendar])

/-- From an instant of the calendar on, only its end can be missed. -/
theorem add?_eq_none_iff_of_le (ht : firstSecond ≤ t.seconds) :
    t.add? d = none ↔ lastSecond < t.secondAfter d := by
  have hlater : t.seconds ≤ t.secondAfter d := by
    unfold secondAfter
    omega
  rw [add?_eq_none_iff]
  omega

theorem inCalendar_of_add? (h : t.add? d = some later) : later.InCalendar := by
  obtain ⟨hin, hlater⟩ := Option.ite_none_right_eq_some.mp h
  cases hlater
  exact hin

theorem seconds_of_add? (h : t.add? d = some later) : later.seconds = t.secondAfter d := by
  obtain ⟨sum, hseconds, -, -, hadd⟩ := exists_sum t d
  obtain ⟨-, hlater⟩ := Option.ite_none_right_eq_some.mp (hadd.symm.trans h)
  cases hlater
  exact hseconds

theorem nanos_of_add? (h : t.add? d = some later) :
    later.nanos / 1000000000 ≤ t.nanos / 1000000000 := by
  obtain ⟨sum, -, -, hnanos, hadd⟩ := exists_sum t d
  obtain ⟨-, hlater⟩ := Option.ite_none_right_eq_some.mp (hadd.symm.trans h)
  cases hlater
  exact hnanos

/-- The parts of the seconds are added, the whole seconds do not matter to them. -/
theorem part_of_add? (h : t.add? d = some later) :
    later.nanos % 1000000000 = (t.nanos + d.nanos) % 1000000000 := by
  obtain ⟨sum, -, hpart, -, hadd⟩ := exists_sum t d
  obtain ⟨-, hlater⟩ := Option.ite_none_right_eq_some.mp (hadd.symm.trans h)
  cases hlater
  exact hpart

/-- Outside leap seconds an instant and a span are added as nanoseconds. -/
theorem add?_eq (ht : t.nanos < 1000000000) (hend : (t.endSecond d).InCalendar) :
    ∃ later, t.add? d = some later ∧ later.floor = t.endSecond d := by
  cases hadd : t.add? d with
  | none =>
    rw [add?_eq_none_iff, secondAfter_eq ht] at hadd
    exact absurd hend hadd
  | some later =>
    have hseconds := (seconds_of_add? hadd).trans (secondAfter_eq ht)
    have hnanos : later.nanos / 1000000000 * 1000000000 = 0 := by
      have := nanos_of_add? hadd
      omega
    refine ⟨later, rfl, ?_⟩
    simp only [floor, hseconds, hnanos]
    rfl

end Instant

/-! ## Whole seconds -/

namespace Instant

variable {t later : Instant} {n : Nat}

theorem secondAfter_ofSeconds (t : Instant) (n : Nat) :
    t.secondAfter (.ofSeconds n) = t.seconds + n := by
  simp only [secondAfter, Span.toNanos, Span.ofSeconds]
  omega

theorem add?_of_addSeconds? (h : t.addSeconds? n = some later) :
    t.add? (.ofSeconds n) = some later :=
  (Option.ite_none_right_eq_some.mp h).2

/-- From an instant of the calendar on, a count of seconds that is refused unseen would have led out
of the calendar. So only the end of the calendar counts. -/
theorem addSeconds?_eq (ht : firstSecond ≤ t.seconds) :
    t.addSeconds? n = t.add? (.ofSeconds n) := by
  unfold addSeconds?
  split
  · rfl
  · next hrefused =>
    have hlong : 9223372036854775 < n := by
      simp only [Span.IsAddable, Span.ofSeconds, Span.longest] at hrefused
      omega
    have hfirst : firstSecond = -8334601228800 := by decide
    have hlast : lastSecond = 8210266876799 := by decide
    symm
    rw [add?_eq_none_iff_of_le ht, secondAfter_ofSeconds]
    omega

theorem addSeconds?_eq_none_iff (ht : firstSecond ≤ t.seconds) :
    t.addSeconds? n = none ↔ lastSecond < t.seconds + n := by
  rw [addSeconds?_eq ht, add?_eq_none_iff_of_le ht, secondAfter_ofSeconds]

theorem seconds_of_addSeconds? (h : t.addSeconds? n = some later) :
    later.seconds = t.seconds + n := by
  rw [seconds_of_add? (add?_of_addSeconds? h), secondAfter_ofSeconds]

/-- Whole seconds keep the part of the second. Only a leap second is left by them. -/
theorem part_of_addSeconds? (h : t.addSeconds? n = some later) :
    later.nanos % 1000000000 = t.nanos % 1000000000 :=
  part_of_add? (add?_of_addSeconds? h)

theorem nanos_eq_of_addSeconds? (h : t.addSeconds? n = some later)
    (ht : t.nanos < 1000000000) : later.nanos = t.nanos := by
  have hpart := part_of_addSeconds? h
  have hleap := nanos_of_add? (add?_of_addSeconds? h)
  omega

end Instant

/-! ## A later second -/

/-- The span ends after the second of the instant. -/
def Span.Outlasts (d : Span) (t : Instant) : Prop :=
  1000000000 ≤ t.nanos % 1000000000 + d.toNanos

instance (d : Span) (t : Instant) : Decidable (d.Outlasts t) := inferInstanceAs (Decidable (_ ≤ _))

/-- A second or more outlasts any second. -/
theorem Span.outlasts_of_seconds (d : Span) (h : 0 < d.seconds) (t : Instant) : d.Outlasts t := by
  unfold Outlasts toNanos
  omega

namespace Instant

variable {t later : Instant} {d : Span}

theorem seconds_lt_secondAfter_iff : t.seconds < t.secondAfter d ↔ d.Outlasts t := by
  unfold secondAfter Span.Outlasts
  omega

theorem lt_floor_of_add? (h : t.add? d = some later) (hd : d.Outlasts t) : t < later.floor := by
  have hseconds : t.seconds < later.floor.seconds := by
    show t.seconds < later.seconds
    rw [seconds_of_add? h]
    exact seconds_lt_secondAfter_iff.mpr hd
  refine ⟨.inl hseconds, ?_⟩
  rw [le_def]
  omega

theorem floor_le_of_add? (h : t.add? d = some later) (hd : ¬ d.Outlasts t) : later.floor ≤ t := by
  have hseconds : ¬ t.seconds < later.seconds := by
    rw [seconds_of_add? h]
    exact mt seconds_lt_secondAfter_iff.mp hd
  have hnanos := nanos_of_add? h
  rw [le_def]
  simp only [floor]
  omega

end Instant
end Gatehouse
