import Mathlib
import JoinIndex.Calendar

/-!
Civil days and their numbers. Different days of the calendar have different numbers, before the
year 1 as after it, and different times of a day lie at different seconds of it, so that a date or a
moment is known by its civil fields. The years are counted from March, which puts the leap day at
the end of its year: every year then takes the numbers that the years before it leave free.
-/

set_option autoImplicit false
set_option relaxedAutoImplicit false

namespace JoinIndex

namespace CivilDay

variable {c d : CivilDay}

/-- The year of a day, a year beginning in March. -/
def marchYear (c : CivilDay) : ℤ :=
  if c.month ≤ 2 then c.year - 1 else c.year

/-- The days from the first of March to a day. -/
def marchDay (c : CivilDay) : ℤ :=
  ((153 * ((c.month + 9) % 12) + 2) / 5 : ℕ) + (c.day : ℤ) - 1

/-- The days of all years from March of year 0 to March of another one. -/
def daysBefore (year : ℤ) : ℤ :=
  365 * year + year / 4 - year / 100 + year / 400

theorem number_eq (c : CivilDay) : c.number = daysBefore c.marchYear + c.marchDay - 305 := by
  have hcycle : ∀ year : ℤ, year / 400 * 146097 + year % 400 * 365 + year % 400 / 4 -
      year % 400 / 100 = daysBefore year := by
    intro year
    unfold daysBefore
    omega
  rw [← hcycle]
  rfl

theorem daysBefore_succ (year : ℤ) :
    daysBefore (year + 1) = daysBefore year + if isLeapYear (year + 1) then 366 else 365 := by
  have hleap : isLeapYear (year + 1) = true ↔
      (year + 1) % 4 = 0 ∧ ((year + 1) % 100 ≠ 0 ∨ (year + 1) % 400 = 0) := by
    simp [isLeapYear]
  unfold daysBefore
  split_ifs with h
  · rw [hleap] at h
    omega
  · rw [hleap] at h
    omega

theorem daysBefore_strictMono : StrictMono daysBefore := by
  refine strictMono_int_of_lt_succ fun year ↦ ?_
  show daysBefore year < daysBefore (year + 1)
  rw [daysBefore_succ]
  split_ifs <;> omega

theorem isValid_iff : c.isValid = true ↔
    (1 ≤ c.month ∧ c.month ≤ 12) ∧ 1 ≤ c.day ∧ c.day ≤ daysInMonth c.year c.month := by
  simp [isValid, and_assoc]

/-- A day lies before the end of its year. -/
theorem marchDay_bounds (h : c.isValid = true) :
    0 ≤ c.marchDay ∧ daysBefore c.marchYear + c.marchDay < daysBefore (c.marchYear + 1) := by
  obtain ⟨⟨hfirst, hlast⟩, hday, hlength⟩ := isValid_iff.mp h
  rw [daysBefore_succ]
  unfold marchDay marchYear
  generalize c.month = month at *
  interval_cases month <;> simp [daysInMonth] at hlength ⊢ <;> split_ifs at * <;> omega

/-- The month can be read off the days since the first of March. -/
theorem month_eq_of_marchDay (h : c.isValid = true) :
    (5 * c.marchDay + 2) / 153 = ((c.month + 9) % 12 : ℕ) := by
  obtain ⟨⟨hfirst, hlast⟩, hday, hlength⟩ := isValid_iff.mp h
  have hfebruary : c.month = 2 → c.day ≤ 29 := by
    intro hmonth
    rw [hmonth, daysInMonth, if_pos rfl] at hlength
    split_ifs at hlength <;> omega
  unfold marchDay
  generalize c.month = month at *
  interval_cases month <;> simp [daysInMonth] at hlength hfebruary ⊢ <;> omega

/-- Days of one number are in one year: the numbers of the years do not overlap. -/
theorem marchYear_eq_of_number_eq (hc : c.isValid = true) (hd : d.isValid = true)
    (h : c.number = d.number) : c.marchYear = d.marchYear := by
  obtain ⟨hc0, hc1⟩ := marchDay_bounds hc
  obtain ⟨hd0, hd1⟩ := marchDay_bounds hd
  rw [number_eq, number_eq] at h
  have hcd : daysBefore c.marchYear < daysBefore (d.marchYear + 1) := by omega
  have hdc : daysBefore d.marchYear < daysBefore (c.marchYear + 1) := by omega
  rw [daysBefore_strictMono.lt_iff_lt] at hcd hdc
  omega

theorem eq_of_number_eq (hc : c.isValid = true) (hd : d.isValid = true)
    (h : c.number = d.number) : c = d := by
  have hyear := marchYear_eq_of_number_eq hc hd h
  have hday : c.marchDay = d.marchDay := by
    rw [number_eq, number_eq, hyear] at h
    omega
  have hshifted : (c.month + 9) % 12 = (d.month + 9) % 12 := by
    have hc' := month_eq_of_marchDay hc
    rw [hday, month_eq_of_marchDay hd] at hc'
    exact_mod_cast hc'.symm
  obtain ⟨⟨hc1, hc12⟩, -, -⟩ := isValid_iff.mp hc
  obtain ⟨⟨hd1, hd12⟩, -, -⟩ := isValid_iff.mp hd
  have hmonth : c.month = d.month := by omega
  unfold marchYear at hyear
  unfold marchDay at hday
  rw [hmonth] at hyear hday
  obtain ⟨_, _, _⟩ := c
  obtain ⟨_, _, _⟩ := d
  simp only [mk.injEq]
  dsimp only at *
  refine ⟨?_, hmonth, ?_⟩
  · split_ifs at hyear <;> omega
  · omega

end CivilDay

theorem Date.ofCivil?_eq_some_iff {c : CivilDay} {d : Date} :
    Date.ofCivil? c = some d ↔ c.isValid = true ∧ d.day = c.number := by
  unfold Date.ofCivil? Date.ofNumber?
  constructor
  · intro h
    split_ifs at h with hvalid hrange
    exact ⟨hvalid, (congrArg Date.day (Option.some.inj h)).symm⟩
  · rintro ⟨hvalid, hday⟩
    have hrange := d.in_range
    rw [hday] at hrange
    rw [if_pos hvalid, dif_pos hrange, Option.some.injEq]
    cases d
    simp_all

namespace Moment

/-- The nanoseconds since 1970-01-01 00:00:00, those of a leap second counting on past its
second. -/
def epochNanos (m : Moment) : ℤ :=
  m.seconds * 10 ^ 9 + m.nanos

theorem micros_eq (m : Moment) : m.micros = m.epochNanos / 1000 := by
  unfold micros epochNanos
  omega

/-- Moments are the same only if all their civil fields are. -/
theorem eq_iff_of_ofCivil? {c c' : CivilDay} {hour minute second nanos : ℕ}
    {hour' minute' second' nanos' : ℕ} {m m' : Moment}
    (h : ofCivil? c hour minute second nanos = some m)
    (h' : ofCivil? c' hour' minute' second' nanos' = some m') :
    m = m' ↔ c = c' ∧ hour = hour' ∧ minute = minute' ∧ second = second' ∧ nanos = nanos' := by
  constructor
  · rintro rfl
    unfold ofCivil? ofSeconds? at h h'
    split_ifs at h h' with hfields _ _ hfields'
    simp only [Bool.and_eq_true, decide_eq_true_iff] at hfields hfields'
    obtain ⟨⟨⟨hvalid, hhour⟩, hminute⟩, hsecond⟩ := hfields
    obtain ⟨⟨⟨hvalid', hhour'⟩, hminute'⟩, hsecond'⟩ := hfields'
    rw [Option.some.injEq] at h h'
    have hseconds := congrArg seconds (h.trans h'.symm)
    have hnanos := congrArg Moment.nanos (h.trans h'.symm)
    dsimp only [secondsPerDay, epochDay] at hseconds hnanos
    have hnumber : c.number = c'.number := by omega
    exact ⟨CivilDay.eq_of_number_eq hvalid hvalid' hnumber, by omega, by omega, by omega, hnanos⟩
  · rintro ⟨rfl, rfl, rfl, rfl, rfl⟩
    exact Option.some.inj (h.symm.trans h')

end Moment

end JoinIndex
