import Mathlib.Algebra.Order.BigOperators.Group.Finset
import Mathlib.Data.List.Lex
import SearchCompiler.Filter.Timestamp

/-!
# The Gregorian calendar

Dates and times of the years 0 to 9999 in the proleptic Gregorian calendar, described by the lengths
of its years and months alone, and the seconds that lie between them. The six numbers of a date and
time are in the order of the seconds (`DateTime.seconds_lt_iff`), and so no two of them stand for
the same point in time (`DateTime.seconds_injective`).
-/

namespace SearchCompiler.Filter

open Finset (range sum_range_succ)

namespace Calendar

/-- Every fourth year is a leap year, but of the years that end a century only every fourth. -/
def IsLeapYear (year : Nat) : Prop :=
  4 ∣ year ∧ ¬ 100 ∣ year ∨ 400 ∣ year

instance (year : Nat) : Decidable (IsLeapYear year) :=
  inferInstanceAs (Decidable (_ ∨ _))

def yearLength (year : Nat) : Nat :=
  if IsLeapYear year then 366 else 365

/-- The number of days of a month, from January at one to December at twelve. -/
def monthLength (year : Nat) : Nat → Nat
  | 2 => if IsLeapYear year then 29 else 28
  | 4 | 6 | 9 | 11 => 30
  | _ => 31

/-- The days from the start of the year 0 to the start of a year. -/
def daysBeforeYear (year : Nat) : Nat :=
  ∑ y ∈ range year, yearLength y

/-- The days from the start of a year to the start of one of its months. -/
def daysBeforeMonth (year month : Nat) : Nat :=
  ∑ m ∈ range (month - 1), monthLength year (m + 1)

theorem monthLength_le (year month : Nat) : monthLength year month ≤ 31 := by
  unfold monthLength
  split
  · split <;> decide
  all_goals decide

theorem daysBeforeMonth_succ (year : Nat) {month : Nat} (from_one : 1 ≤ month) :
    daysBeforeMonth year (month + 1) = daysBeforeMonth year month + monthLength year month := by
  obtain ⟨m, rfl⟩ : ∃ m, month = m + 1 := ⟨month - 1, by omega⟩
  exact sum_range_succ _ _

theorem daysBeforeYear_mono {year later : Nat} (sooner : year ≤ later) :
    daysBeforeYear year ≤ daysBeforeYear later :=
  Finset.sum_le_sum_of_subset (Finset.range_mono sooner)

theorem daysBeforeMonth_mono (year : Nat) {month later : Nat} (sooner : month ≤ later) :
    daysBeforeMonth year month ≤ daysBeforeMonth year later :=
  Finset.sum_le_sum_of_subset (Finset.range_mono (Nat.sub_le_sub_right sooner 1))

/-- The months of a year make up the year. -/
theorem daysBeforeMonth_thirteen (year : Nat) : daysBeforeMonth year 13 = yearLength year := by
  unfold daysBeforeMonth yearLength
  simp only [sum_range_succ, Finset.sum_range_zero, monthLength]
  split <;> rfl

end Calendar

open Calendar

/-- A date of the years 0 to 9999 with a time of day. -/
@[ext]
structure DateTime where
  year : Nat
  month : Nat
  day : Nat
  hour : Nat
  minute : Nat
  second : Nat
  year_lt : year < 10000 := by decide
  month_pos : 1 ≤ month := by decide
  month_le : month ≤ 12 := by decide
  day_pos : 1 ≤ day := by decide
  day_le : day ≤ monthLength year month := by decide
  hour_lt : hour < 24 := by decide
  minute_lt : minute < 60 := by decide
  second_lt : second < 60 := by decide

namespace DateTime

/-- The days from the start of the year 0. -/
def days (d : DateTime) : Nat :=
  daysBeforeYear d.year + daysBeforeMonth d.year d.month + (d.day - 1)

def seconds (d : DateTime) : Nat :=
  86400 * d.days + 3600 * d.hour + 60 * d.minute + d.second

/-- The start of 1970. -/
def epoch : DateTime where
  year := 1970
  month := 1
  day := 1
  hour := 0
  minute := 0
  second := 0

def timestamp (d : DateTime) : Int :=
  d.seconds - epoch.seconds

/-- The six numbers, from the year to the second. -/
def fields (d : DateTime) : List Nat :=
  [d.year, d.month, d.day, d.hour, d.minute, d.second]

theorem fields_injective {d e : DateTime} (same : d.fields = e.fields) : d = e := by
  simp only [fields, List.cons.injEq, and_true] at same
  obtain ⟨year, month, day, hour, minute, second⟩ := same
  exact DateTime.ext year month day hour minute second

/-- A date lies within its month. -/
theorem days_lt_month (d : DateTime) :
    d.days < daysBeforeYear d.year + daysBeforeMonth d.year (d.month + 1) := by
  rw [daysBeforeMonth_succ d.year d.month_pos, days]
  have := d.day_pos
  have := d.day_le
  omega

/-- A date lies within its year. -/
theorem days_lt_year (d : DateTime) : d.days < daysBeforeYear (d.year + 1) := by
  have within := d.days_lt_month
  have months := daysBeforeMonth_mono d.year (Nat.add_le_add_right d.month_le 1)
  rw [daysBeforeMonth_thirteen] at months
  have year : daysBeforeYear (d.year + 1) = daysBeforeYear d.year + yearLength d.year :=
    sum_range_succ _ _
  omega

theorem days_lt_of_year_lt {d e : DateTime} (sooner : d.year < e.year) : d.days < e.days := by
  have within := d.days_lt_year
  have years : daysBeforeYear (d.year + 1) ≤ daysBeforeYear e.year := daysBeforeYear_mono sooner
  rw [days.eq_1 e]
  omega

theorem days_lt_of_month_lt {d e : DateTime} (year : d.year = e.year) (sooner : d.month < e.month) :
    d.days < e.days := by
  have within := d.days_lt_month
  have months : daysBeforeMonth d.year (d.month + 1) ≤ daysBeforeMonth d.year e.month :=
    daysBeforeMonth_mono d.year sooner
  rw [days.eq_1 e, ← year]
  omega

theorem days_lt_of_day_lt {d e : DateTime} (year : d.year = e.year) (month : d.month = e.month)
    (sooner : d.day < e.day) : d.days < e.days := by
  have := d.day_pos
  rw [days, days, year, month]
  omega

theorem seconds_lt_of_days_lt {d e : DateTime} (sooner : d.days < e.days) :
    d.seconds < e.seconds := by
  have := d.hour_lt
  have := d.minute_lt
  have := d.second_lt
  rw [seconds, seconds]
  omega

/-- All dates lie before the year 10000. -/
theorem seconds_lt (d : DateTime) : d.seconds < 86400 * daysBeforeYear 10000 := by
  have within := d.days_lt_year
  have years : daysBeforeYear (d.year + 1) ≤ daysBeforeYear 10000 := daysBeforeYear_mono d.year_lt
  have := d.hour_lt
  have := d.minute_lt
  have := d.second_lt
  rw [seconds]
  omega

theorem fields_lt_iff {d e : DateTime} : d.fields < e.fields ↔
    d.year < e.year ∨ d.year = e.year ∧ (d.month < e.month ∨ d.month = e.month ∧
      (d.day < e.day ∨ d.day = e.day ∧ (d.hour < e.hour ∨ d.hour = e.hour ∧
        (d.minute < e.minute ∨ d.minute = e.minute ∧ d.second < e.second)))) := by
  simp [fields, List.cons_lt_cons_iff]

/-- A date and time that comes first in its numbers comes first. -/
theorem seconds_lt_of_fields_lt {d e : DateTime} (sooner : d.fields < e.fields) :
    d.seconds < e.seconds := by
  rcases fields_lt_iff.mp sooner with year | ⟨year, month | ⟨month, day | ⟨day, time⟩⟩⟩
  · exact seconds_lt_of_days_lt (days_lt_of_year_lt year)
  · exact seconds_lt_of_days_lt (days_lt_of_month_lt year month)
  · exact seconds_lt_of_days_lt (days_lt_of_day_lt year month day)
  · have same : d.days = e.days := by rw [days, days, year, month, day]
    have := d.minute_lt
    have := d.second_lt
    rw [seconds, seconds, same]
    omega

/-- Dates are in the order of their six numbers. -/
theorem seconds_lt_iff {d e : DateTime} : d.seconds < e.seconds ↔ d.fields < e.fields := by
  refine ⟨fun sooner => ?_, seconds_lt_of_fields_lt⟩
  rcases lt_trichotomy d.fields e.fields with less | same | greater
  · exact less
  · rw [fields_injective same] at sooner
    exact absurd sooner (Nat.lt_irrefl _)
  · exact absurd (seconds_lt_of_fields_lt greater) (Nat.lt_asymm sooner)

/-- No two dates with their times have the same seconds before them. -/
theorem seconds_injective {d e : DateTime} (same : d.seconds = e.seconds) : d = e := by
  have first : ¬ d.fields < e.fields := fun less => (seconds_lt_iff.mpr less).ne same
  have second : ¬ e.fields < d.fields := fun less => (seconds_lt_iff.mpr less).ne' same
  exact fields_injective (le_antisymm (not_lt.mp second) (not_lt.mp first))

end DateTime

end SearchCompiler.Filter
