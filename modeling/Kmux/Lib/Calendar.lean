import Mathlib.Algebra.BigOperators.Intervals
import Mathlib.Algebra.Order.BigOperators.Group.Finset
import Mathlib.Data.Prod.Lex
import Mathlib.Order.Interval.Finset.Nat

/-!
# The Gregorian calendar

Dates of the proleptic Gregorian calendar from year 0 on, and times of day without leap seconds. A
date is numbered by the days before it, counted from the year lengths and the month lengths. The
numbering follows the lexicographic order of year, month and day, so that it names no day twice;
`daysBeforeYear_add` is the only place where leap years are counted by division.
-/

namespace Gregorian

open Finset

def IsLeap (y : ℕ) : Prop := y % 4 = 0 ∧ (y % 100 = 0 → y % 400 = 0)

instance : DecidablePred IsLeap := fun y ↦
  inferInstanceAs (Decidable (y % 4 = 0 ∧ (y % 100 = 0 → y % 400 = 0)))

def yearLength (y : ℕ) : ℕ := if IsLeap y then 366 else 365

def monthLength (y m : ℕ) : ℕ :=
  if m = 2 then if IsLeap y then 29 else 28
  else if m = 4 ∨ m = 6 ∨ m = 9 ∨ m = 11 then 30
  else 31

/-- The days of all years before one. -/
def daysBeforeYear (y : ℕ) : ℕ := ∑ i ∈ range y, yearLength i

/-- The days of the months of a year before one. -/
def daysBeforeMonth (y m : ℕ) : ℕ := ∑ i ∈ Ico 1 m, monthLength y i

/-- A date that exists. -/
structure Date where
  year : ℕ
  month : ℕ
  day : ℕ
  one_le_month : 1 ≤ month
  month_le : month ≤ 12
  one_le_day : 1 ≤ day
  day_le : day ≤ monthLength year month
  deriving DecidableEq

/-- A time of day on a date. -/
structure DateTime extends Date where
  hour : ℕ
  minute : ℕ
  second : ℕ
  hour_lt : hour < 24
  minute_lt : minute < 60
  second_lt : second < 60
  deriving DecidableEq

/-- The days before a date. -/
def Date.number (d : Date) : ℕ :=
  daysBeforeYear d.year + daysBeforeMonth d.year d.month + (d.day - 1)

/-- The seconds before a time. -/
def DateTime.seconds (t : DateTime) : ℕ :=
  t.number * 86400 + t.hour * 3600 + t.minute * 60 + t.second

/-- The first second of a year. -/
def newYear (y : ℕ) : DateTime :=
  ⟨⟨y, 1, 1, by decide, by decide, by decide, by simp [monthLength]⟩, 0, 0, 0, by decide, by decide,
    by decide⟩

/-! ## Lengths -/

theorem daysBeforeYear_succ (y : ℕ) :
    daysBeforeYear (y + 1) = daysBeforeYear y + yearLength y := sum_range_succ _ _

/-- One at the multiples of `k`. -/
def multiple (k y : ℕ) : ℕ := if y % k = 0 then 1 else 0

/-- The day more that a leap year has. -/
def leapDay (y : ℕ) : ℕ := if IsLeap y then 1 else 0

/-- Every fourth year but every hundredth, and again every four-hundredth. -/
theorem leapDay_add (y : ℕ) : leapDay y + multiple 100 y = multiple 4 y + multiple 400 y := by
  have h100 : y % 400 = 0 → y % 100 = 0 := by omega
  have h4 : y % 100 = 0 → y % 4 = 0 := by omega
  rw [leapDay, multiple, multiple, multiple]
  by_cases hfour : y % 4 = 0
  · by_cases hhundred : y % 100 = 0
    · simp [IsLeap, hfour, hhundred, Nat.add_comm]
    · simp [IsLeap, hfour, hhundred, mt h100 hhundred]
  · simp [IsLeap, hfour, mt h4 hfour, mt (h4 ∘ h100) hfour]

/-- Rounding a quotient up adds one to it except at the multiples. -/
theorem rounded_up (y : ℕ) :
    (y + 3) / 4 + multiple 4 y = y / 4 + 1 ∧ (y + 99) / 100 + multiple 100 y = y / 100 + 1 ∧
      (y + 399) / 400 + multiple 400 y = y / 400 + 1 := by
  rw [multiple, multiple, multiple]
  refine ⟨?_, ?_, ?_⟩ <;> split <;> omega

/-- Leap years counted: every fourth year but every hundredth, and again every four-hundredth. -/
theorem daysBeforeYear_add (y : ℕ) :
    daysBeforeYear y + (y + 99) / 100 = 365 * y + (y + 3) / 4 + (y + 399) / 400 := by
  induction y with
  | zero => rfl
  | succ y ih =>
    obtain ⟨h4, h100, h400⟩ := rounded_up y
    have hleap := leapDay_add y
    have hlength : yearLength y = 365 + leapDay y := by
      rw [yearLength, leapDay]
      split <;> rfl
    rw [daysBeforeYear_succ, hlength]
    omega

theorem daysBeforeYear_le {y y' : ℕ} (h : y ≤ y') : daysBeforeYear y ≤ daysBeforeYear y' :=
  sum_le_sum_of_subset (range_subset_range.mpr h)

theorem daysBeforeMonth_one (y : ℕ) : daysBeforeMonth y 1 = 0 := rfl

theorem daysBeforeMonth_succ (y : ℕ) {m : ℕ} (hm : 1 ≤ m) :
    daysBeforeMonth y (m + 1) = daysBeforeMonth y m + monthLength y m :=
  sum_Ico_succ_top hm _

theorem daysBeforeMonth_le (y : ℕ) {m m' : ℕ} (h : m ≤ m') :
    daysBeforeMonth y m ≤ daysBeforeMonth y m' :=
  sum_le_sum_of_subset (Ico_subset_Ico_right h)

/-- The months fill the year. -/
theorem daysBeforeMonth_year (y : ℕ) : daysBeforeMonth y 13 = yearLength y := by
  by_cases h : IsLeap y <;> simp [daysBeforeMonth, monthLength, yearLength, h, sum_Ico_eq_sum_range,
    sum_range_succ]

namespace Date

variable {d d' : Date}

/-- A day is before the next month. -/
theorem day_lt_month (d : Date) :
    daysBeforeMonth d.year d.month + (d.day - 1) < daysBeforeMonth d.year (d.month + 1) := by
  have hone := d.one_le_day
  have hle := d.day_le
  rw [daysBeforeMonth_succ _ d.one_le_month]
  omega

/-- A day is before the next year. -/
theorem day_lt_year (d : Date) :
    daysBeforeMonth d.year d.month + (d.day - 1) < yearLength d.year := by
  rw [← daysBeforeMonth_year]
  exact d.day_lt_month.trans_le (daysBeforeMonth_le _ (Nat.succ_le_succ d.month_le))

/-- A date as a triple, in lexicographic order. -/
def key (d : Date) : ℕ ×ₗ ℕ ×ₗ ℕ := toLex (d.year, toLex (d.month, d.day))

theorem key_injective : Function.Injective key := by
  rintro ⟨y, m, day, _, _, _, _⟩ ⟨y', m', day', _, _, _, _⟩ h
  obtain ⟨rfl, h⟩ := Prod.mk.inj (toLex.injective h)
  obtain ⟨rfl, rfl⟩ := Prod.mk.inj (toLex.injective h)
  rfl

/-- Later dates have greater numbers. -/
theorem number_lt_number (h : d.key < d'.key) : d.number < d'.number := by
  rw [number, number]
  rcases Prod.Lex.toLex_lt_toLex.mp h with hyear | ⟨hyear, h⟩
  · have hlt := d.day_lt_year
    have hle : daysBeforeYear (d.year + 1) ≤ daysBeforeYear d'.year := daysBeforeYear_le hyear
    rw [daysBeforeYear_succ] at hle
    omega
  · change d.year = d'.year at hyear
    rcases Prod.Lex.toLex_lt_toLex.mp h with hmonth | ⟨hmonth, hday⟩
    · have hlt := d.day_lt_month
      have hle := daysBeforeMonth_le d.year (show d.month + 1 ≤ d'.month from hmonth)
      rw [← hyear]
      omega
    · change d.month = d'.month at hmonth
      change d.day < d'.day at hday
      have hone := d.one_le_day
      rw [← hyear, ← hmonth]
      omega

end Date

namespace DateTime

variable {t t' : DateTime}

/-- A time as a tuple, in lexicographic order. -/
def key (t : DateTime) : ℕ ×ₗ ℕ ×ₗ ℕ ×ₗ ℕ ×ₗ ℕ ×ₗ ℕ :=
  toLex (t.year, toLex (t.month, toLex (t.day, toLex (t.hour, toLex (t.minute, t.second)))))

theorem key_injective : Function.Injective key := by
  rintro ⟨⟨y, mo, d, _, _, _, _⟩, h, mi, s, _, _, _⟩
    ⟨⟨y', mo', d', _, _, _, _⟩, h', mi', s', _, _, _⟩ hkey
  obtain ⟨rfl, hkey⟩ := Prod.mk.inj (toLex.injective hkey)
  obtain ⟨rfl, hkey⟩ := Prod.mk.inj (toLex.injective hkey)
  obtain ⟨rfl, hkey⟩ := Prod.mk.inj (toLex.injective hkey)
  obtain ⟨rfl, hkey⟩ := Prod.mk.inj (toLex.injective hkey)
  obtain ⟨rfl, rfl⟩ := Prod.mk.inj (toLex.injective hkey)
  rfl

theorem seconds_newYear (y : ℕ) : (newYear y).seconds = daysBeforeYear y * 86400 := by
  simp [newYear, seconds, Date.number, daysBeforeMonth_one]

/-- A later time is on a later date, or later on that date. -/
theorem key_lt_key (h : t.key < t'.key) :
    t.toDate.key < t'.toDate.key ∨ t.toDate = t'.toDate ∧
      (t.hour < t'.hour ∨ t.hour = t'.hour ∧
        (t.minute < t'.minute ∨ t.minute = t'.minute ∧ t.second < t'.second)) := by
  simp only [key, Prod.Lex.toLex_lt_toLex] at h
  rw [← Date.key_injective.eq_iff]
  simp only [Date.key, Prod.Lex.toLex_lt_toLex, toLex_inj, Prod.mk.injEq]
  tauto

/-- Later times come after more seconds. -/
theorem seconds_lt_seconds (h : t.key < t'.key) : t.seconds < t'.seconds := by
  have hhour := t.hour_lt
  have hminute := t.minute_lt
  have hsecond := t.second_lt
  rw [seconds, seconds]
  rcases key_lt_key h with hdate | ⟨hdate, htime⟩
  · have hnumber := Date.number_lt_number hdate
    omega
  · rw [hdate]
    omega

/-- Lexicographic order is the order in time. -/
theorem seconds_lt_seconds_iff : t.seconds < t'.seconds ↔ t.key < t'.key := by
  refine ⟨fun h ↦ lt_of_not_ge fun hle ↦ ?_, seconds_lt_seconds⟩
  rcases hle.lt_or_eq with hlt | heq
  · exact h.not_gt (seconds_lt_seconds hlt)
  · exact h.ne (congrArg seconds (key_injective heq.symm))

/-- No two times come after as many seconds. -/
theorem seconds_injective : Function.Injective seconds := by
  intro t t' h
  by_contra hne
  rcases lt_or_gt_of_ne (key_injective.ne hne) with hlt | hlt
  · exact (seconds_lt_seconds hlt).ne h
  · exact (seconds_lt_seconds hlt).ne h.symm

end DateTime

end Gregorian
