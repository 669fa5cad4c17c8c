import Kmux.Lib.Calendar
import Mathlib.Tactic.IntervalCases

/-!
# Timestamps

`epoch_secs_to_ymd_hms` turns seconds since the Unix epoch into a date and a time of day. Days are
counted from the first of March of year 0 and split into eras of 400 years, so that a leap day ends
a year of the era. The year of the era is found by one division after the leap days so far have been
taken out, and the month by another.

The arithmetic is on 64 bits and checked: `none` is an operation that would leave them.
-/

namespace Kmux

open Gregorian

/-! ## The conversion -/

def u64Add (a b : ℕ) : Option ℕ := if a + b < 2 ^ 64 then some (a + b) else none

def u64Sub (a b : ℕ) : Option ℕ := if b ≤ a then some (a - b) else none

def u64Mul (a b : ℕ) : Option ℕ := if a * b < 2 ^ 64 then some (a * b) else none

/-- Year, month, day, hour, minute and second. -/
abbrev YmdHms := UInt32 × UInt32 × UInt32 × UInt32 × UInt32 × UInt32

/-- The lexicographic order of tuples. -/
def YmdHms.key : YmdHms → ℕ ×ₗ ℕ ×ₗ ℕ ×ₗ ℕ ×ₗ ℕ ×ₗ ℕ
  | (y, mo, d, h, mi, s) =>
    toLex (y.toNat, toLex (mo.toNat, toLex (d.toNat, toLex (h.toNat, toLex (mi.toNat, s.toNat)))))

/-- `yoe`, from the day of the era. -/
def yearOfEra (doe : ℕ) : Option ℕ := do
  let days ← u64Sub doe (doe / 1460)
  let days ← u64Add days (doe / 36524)
  let days ← u64Sub days (doe / 146096)
  some (days / 365)

/-- `doy`, from the day and the year of the era. -/
def dayOfYear (doe yoe : ℕ) : Option ℕ := do
  let days ← u64Mul 365 yoe
  let days ← u64Add days (yoe / 4)
  let days ← u64Sub days (yoe / 100)
  u64Sub doe days

/-- `mp` and `d`, from the day of the year. -/
def monthAndDay (doy : ℕ) : Option (ℕ × ℕ) := do
  let days ← u64Mul 5 doy
  let days ← u64Add days 2
  let mp := days / 153
  let days ← u64Mul 153 mp
  let days ← u64Add days 2
  let day ← u64Sub doy (days / 5)
  let day ← u64Add day 1
  some (mp, day)

/-- `epoch_secs_to_ymd_hms`. -/
def epochSecsToYmdHms (secs : UInt64) : Option YmdHms := do
  let days := secs.toNat / 86400
  let time := secs.toNat % 86400
  let h := (time / 3600).toUInt32
  let mi := ((time % 3600) / 60).toUInt32
  let s := (time % 60).toUInt32
  let z ← u64Add days 719468
  let era := z / 146097
  let doe := z % 146097
  let yoe ← yearOfEra doe
  let eraYears ← u64Mul era 400
  let y ← u64Add yoe eraYears
  let doy ← dayOfYear doe yoe
  let (mp, d) ← monthAndDay doy
  let mo ← if mp < 10 then u64Add mp 3 else u64Sub mp 9
  let mo := mo.toUInt32
  let y ← if mo ≤ 2 then u64Add y 1 else some y
  some (y.toUInt32, mo, d.toUInt32, h, mi, s)

theorem u64Add_eq {a b : ℕ} (h : a + b < 2 ^ 64) : u64Add a b = some (a + b) := if_pos h

theorem u64Sub_eq {a b : ℕ} (h : b ≤ a) : u64Sub a b = some (a - b) := if_pos h

theorem u64Mul_eq {a b : ℕ} (h : a * b < 2 ^ 64) : u64Mul a b = some (a * b) := if_pos h

/-! ## The days of an era

A year of the era is `c` centuries, `q` four-year periods and `k` years into it. -/

/-- A day of the era: the year it is in and the day of that year. -/
structure EraDay (doe yoe doy : ℕ) : Prop where
  yoe_lt : yoe < 400
  doe_eq : doe + yoe / 100 = 365 * yoe + yoe / 4 + doy
  /-- The day after the 365th ends a leap year, -/
  doy_le : doy < 365 ∨ doy = 365 ∧ IsLeap (yoe + 1)

theorem exists_eraDay {doe : ℕ} (h : doe < 146097) : ∃ yoe doy, EraDay doe yoe doy := by
  -- the last century, and the last year of a four-year period, may have a day more
  obtain ⟨c, r, hc, hdoe, hr⟩ : ∃ c r, c < 4 ∧ doe = 36524 * c + r ∧
      (r < 36524 ∨ r = 36524 ∧ c = 3) :=
    ⟨min (doe / 36524) 3, doe - 36524 * min (doe / 36524) 3, by omega, by omega, by omega⟩
  obtain ⟨q, t, hq, hr', ht⟩ : ∃ q t, q < 25 ∧ r = 1461 * q + t ∧
      (t < 1460 ∨ t = 1460 ∧ (q < 24 ∨ c = 3)) :=
    ⟨r / 1461, r % 1461, by omega, by omega, by omega⟩
  obtain ⟨k, doy, hk, ht', hdoy⟩ : ∃ k doy, k < 4 ∧ t = 365 * k + doy ∧
      (doy < 365 ∨ doy = 365 ∧ k = 3) :=
    ⟨min (t / 365) 3, t - 365 * min (t / 365) 3, by omega, by omega, by omega⟩
  refine ⟨100 * c + 4 * q + k, doy, by omega, by omega, ?_⟩
  rw [IsLeap]
  omega

/-- Taking out the leap days so far leaves 365 days a year. -/
theorem EraDay.yearOfEra {doe yoe doy : ℕ} (h : EraDay doe yoe doy) :
    yearOfEra doe = some yoe := by
  obtain ⟨hyoe, hdoe, hdoy⟩ := h
  rw [IsLeap] at hdoy
  obtain ⟨c, q, k, hc, hq, hk, rfl⟩ : ∃ c q k, c < 4 ∧ q < 25 ∧ k < 4 ∧
      yoe = 100 * c + 4 * q + k :=
    ⟨yoe / 100, yoe % 100 / 4, yoe % 4, by omega, by omega, by omega, by omega⟩
  have hk' : doy = 365 → k = 3 := by omega
  have hq' : doy = 365 → q = 24 → c = 3 := by
    rintro rfl rfl
    omega
  have hcount : doe = 36524 * c + 1461 * q + 365 * k + doy := by omega
  have hperiods : doe / 1460 = 25 * c + q + (24 * c + q + 365 * k + doy) / 1460 := by omega
  have hlast : doe / 36524 = c + doe / 146096 := by
    have hend : 1461 * q + 365 * k + doy < 36524 ∨ 1461 * q + 365 * k + doy = 36524 ∧ c = 3 := by
      omega
    clear hdoe hdoy hperiods
    rcases hend with hlt | ⟨heq, rfl⟩ <;> omega
  rw [Kmux.yearOfEra, u64Sub_eq (by omega), Option.bind_eq_bind, Option.bind_some,
    u64Add_eq (by omega), Option.bind_some, u64Sub_eq (by omega), Option.bind_some]
  -- of the days left in the year, one is taken out for each period in them
  have hrest : (24 * c + q + 365 * k + doy) / 1460 ≤ doy ∧
      doy < (24 * c + q + 365 * k + doy) / 1460 + 365 := by
    clear hperiods hlast hdoe hcount hyoe
    omega
  have hsum : doe - doe / 1460 + doe / 36524 - doe / 146096 =
      365 * (100 * c + 4 * q + k) + (doy - (24 * c + q + 365 * k + doy) / 1460) := by
    have hle := hrest.1
    clear hrest hdoe hdoy
    generalize (24 * c + q + 365 * k + doy) / 1460 = m at *
    generalize doe / 1460 = a, doe / 36524 = b, doe / 146096 = d at *
    omega
  have hlt : doy - (24 * c + q + 365 * k + doy) / 1460 < 365 := by
    clear hsum hperiods hlast hdoe hcount
    omega
  rw [hsum, Nat.mul_add_div (show 0 < 365 from Nat.succ_pos _), Nat.div_eq_of_lt hlt, Nat.add_zero]

theorem EraDay.dayOfYear {doe yoe doy : ℕ} (h : EraDay doe yoe doy) :
    dayOfYear doe yoe = some doy := by
  obtain ⟨hyoe, hdoe, -⟩ := h
  rw [Kmux.dayOfYear, u64Mul_eq (by omega), Option.bind_eq_bind, Option.bind_some,
    u64Add_eq (by omega), Option.bind_some, u64Sub_eq (by omega), Option.bind_some,
    u64Sub_eq (by omega)]
  congr 1
  omega

/-! ## The months of a year that begins in March -/

/-- The days of the first months from March on. -/
def daysFromMarch (mp : ℕ) : ℕ := (153 * mp + 2) / 5

theorem daysFromMarch_succ (y : ℕ) {mp : ℕ} (h : mp < 10) :
    daysFromMarch (mp + 1) = daysFromMarch mp + monthLength y (mp + 3) := by
  interval_cases mp <;> rfl

theorem daysBeforeMonth_march (y : ℕ) {mp : ℕ} (h : mp ≤ 10) :
    daysBeforeMonth y (mp + 3) = daysBeforeMonth y 3 + daysFromMarch mp := by
  induction mp with
  | zero => rfl
  | succ mp ih =>
    rw [show mp + 1 + 3 = mp + 3 + 1 by omega, daysBeforeMonth_succ _ (by omega), ih (by omega),
      daysFromMarch_succ y h, Nat.add_assoc]

/-- The number of a year's first of March, with the leap days up to then. -/
theorem daysBeforeMarch_add (y : ℕ) :
    daysBeforeYear y + daysBeforeMonth y 3 + y / 100 = 365 * y + y / 4 + y / 400 + 60 := by
  have hyear := daysBeforeYear_add y
  obtain ⟨h4, h100, h400⟩ := rounded_up y
  have hleap := leapDay_add y
  have hmonth : daysBeforeMonth y 3 = 59 + leapDay y := by
    by_cases h : IsLeap y <;> simp [daysBeforeMonth, monthLength, leapDay, h,
      Finset.sum_Ico_eq_sum_range, Finset.sum_range_succ]
  rw [hmonth]
  omega

/-- The date of a day of the year that begins in March of year `y`. -/
theorem exists_date {y doy : ℕ} (hdoy : doy < 365 ∨ doy = 365 ∧ IsLeap (y + 1)) :
    ∃ (mp : ℕ) (date : Date), mp < 12 ∧ monthAndDay doy = some (mp, date.day) ∧
      date.number = daysBeforeYear y + daysBeforeMonth y 3 + doy ∧
      (mp < 10 ∧ date.month = mp + 3 ∧ date.year = y ∨
        10 ≤ mp ∧ date.month = mp - 9 ∧ date.year = y + 1) := by
  have hle : doy ≤ 365 := hdoy.elim (fun h ↦ h.le) fun h ↦ h.1.le
  set mp := (5 * doy + 2) / 153 with hmp
  have hfirst : daysFromMarch mp ≤ doy := by
    rw [daysFromMarch]
    omega
  have hlast : doy < daysFromMarch (mp + 1) := by
    rw [daysFromMarch]
    omega
  have hday : monthAndDay doy = some (mp, doy - daysFromMarch mp + 1) := by
    rw [daysFromMarch] at hfirst
    rw [monthAndDay, u64Mul_eq (by omega), Option.bind_eq_bind, Option.bind_some,
      u64Add_eq (by omega), Option.bind_some]
    dsimp only
    rw [← hmp, u64Mul_eq (by omega), Option.bind_some, u64Add_eq (by omega), Option.bind_some,
      u64Sub_eq hfirst, Option.bind_some, u64Add_eq (by omega), Option.bind_some, daysFromMarch]
  have hmp12 : mp < 12 := by omega
  by_cases hmarch : mp < 10
  · have hlength := daysFromMarch_succ y hmarch
    refine ⟨mp, ⟨y, mp + 3, doy - daysFromMarch mp + 1, by omega, by omega, by omega, by omega⟩,
      hmp12, hday, ?_, .inl ⟨hmarch, rfl, rfl⟩⟩
    rw [Date.number, daysBeforeMonth_march y hmarch.le]
    dsimp only
    omega
  · -- January and February are of the next year
    have hyear : daysBeforeYear (y + 1) = daysBeforeYear y + daysBeforeMonth y 3 + 306 := by
      rw [daysBeforeYear_succ, ← daysBeforeMonth_year, daysBeforeMonth_march y le_rfl,
        Nat.add_assoc]
      rfl
    obtain heq | heq : mp = 10 ∨ mp = 11 := by omega
    · rw [heq] at hfirst hlast hday
      change 306 ≤ doy at hfirst
      change doy < 337 at hlast
      refine ⟨10, ⟨y + 1, 1, doy - 306 + 1, by omega, by omega, by omega, ?_⟩, by omega, hday, ?_,
        .inr ⟨le_rfl, rfl, rfl⟩⟩
      · change _ ≤ 31
        omega
      · rw [Date.number, hyear, daysBeforeMonth_one]
        dsimp only
        omega
    · rw [heq] at hfirst hlast hday
      change 337 ≤ doy at hfirst
      refine ⟨11, ⟨y + 1, 2, doy - 337 + 1, by omega, by omega, by omega, ?_⟩, by omega, hday, ?_,
        .inr ⟨by omega, rfl, rfl⟩⟩
      · change _ ≤ if IsLeap (y + 1) then 29 else 28
        split
        next => omega
        next hleap =>
          have hlt := hdoy.resolve_right fun h ↦ hleap h.2
          omega
      · have hjanuary : daysBeforeMonth (y + 1) 2 = 31 := daysBeforeMonth_succ _ le_rfl
        rw [Date.number, hyear, hjanuary]
        dsimp only
        omega

/-! ## The conversion against the calendar -/

/-- Midnight of the first of January 1970. -/
def unixEpoch : DateTime := newYear 1970

/-- A time that many seconds after the Unix epoch. -/
def SinceEpoch (secs : UInt64) (t : DateTime) : Prop := t.seconds = unixEpoch.seconds + secs.toNat

/-- The year fits in 32 bits. -/
def YearFits (secs : UInt64) : Prop := ∀ t, SinceEpoch secs t → t.year < 2 ^ 32

theorem seconds_unixEpoch : unixEpoch.seconds = 719528 * 86400 := by
  have hadd := daysBeforeYear_add 1970
  have hyear : daysBeforeYear 1970 = 719528 := by omega
  exact (DateTime.seconds_newYear 1970).trans (congrArg (· * 86400) hyear)

/-- No operation leaves 64 bits, and the fields are those of the time that many seconds after the
epoch. -/
theorem epochSecsToYmdHms_spec (secs : UInt64) : ∃ t, SinceEpoch secs t ∧
    epochSecsToYmdHms secs = some (t.year.toUInt32, t.month.toUInt32, t.day.toUInt32,
      t.hour.toUInt32, t.minute.toUInt32, t.second.toUInt32) := by
  have hlt := secs.toNat_lt
  obtain ⟨z, hz⟩ : ∃ z, z = secs.toNat / 86400 + 719468 := ⟨_, rfl⟩
  obtain ⟨yoe, doy, h⟩ := exists_eraDay (Nat.mod_lt z (show 0 < 146097 by decide))
  have hyoe := h.yoe_lt
  -- eras do not change which years are leap years
  have hleap : IsLeap (yoe + z / 146097 * 400 + 1) ↔ IsLeap (yoe + 1) := by
    rw [IsLeap, IsLeap]
    omega
  have hdoy : doy < 365 ∨ doy = 365 ∧ IsLeap (yoe + z / 146097 * 400 + 1) := by
    rw [hleap]
    exact h.doy_le
  obtain ⟨mp, date, hmp, hday, hnumber, hmonth⟩ := exists_date hdoy
  have hnumber' : date.number = z + 60 := by
    have hmarch := daysBeforeMarch_add (yoe + z / 146097 * 400)
    have hdoe := h.doe_eq
    rw [hnumber]
    have h100 : (yoe + z / 146097 * 400) / 100 = yoe / 100 + 4 * (z / 146097) := by omega
    have h4 : (yoe + z / 146097 * 400) / 4 = yoe / 4 + 100 * (z / 146097) := by omega
    have h400 : (yoe + z / 146097 * 400) / 400 = z / 146097 := by omega
    rw [h100, h4, h400] at hmarch
    omega
  refine ⟨⟨date, secs.toNat % 86400 / 3600, secs.toNat % 86400 % 3600 / 60,
    secs.toNat % 86400 % 60, by omega, by omega, by omega⟩, ?_, ?_⟩
  · rw [SinceEpoch, seconds_unixEpoch, DateTime.seconds, hnumber']
    dsimp only
    omega
  · rw [epochSecsToYmdHms, u64Add_eq (by omega)]
    simp only [Option.bind_eq_bind, Option.bind_some, ← hz, h.yearOfEra, h.dayOfYear, hday]
    rw [u64Mul_eq (by omega), Option.bind_some, u64Add_eq (by omega), Option.bind_some]
    have htwo : ∀ n : ℕ, n < 2 ^ 32 → (n.toUInt32 ≤ 2 ↔ n ≤ 2) := fun n hn ↦ by
      rw [UInt32.le_iff_toNat_le, Nat.toUInt32_eq, UInt32.toNat_ofNat_of_lt' hn]
      rfl
    rcases hmonth with ⟨hmarch, hmo, hyear⟩ | ⟨hmarch, hmo, hyear⟩
    · rw [if_pos hmarch, u64Add_eq (by omega), Option.bind_some,
        if_neg (by rw [htwo _ (by omega)]; omega), hmo, hyear]
    · rw [if_neg (by omega), u64Sub_eq (by omega), Option.bind_some,
        if_pos (by rw [htwo _ (by omega)]; omega), u64Add_eq (by omega), Option.bind_some, hmo,
        hyear]

/-- The fields of a time whose year fits are its own. -/
theorem key_of_spec {secs : UInt64} (hfits : YearFits secs) {t : DateTime} (ht : SinceEpoch secs t)
    {r : YmdHms} (hr : epochSecsToYmdHms secs = some r) : r.key = t.key := by
  obtain ⟨t', ht', hrun⟩ := epochSecsToYmdHms_spec secs
  obtain rfl : t' = t := DateTime.seconds_injective (ht'.trans ht.symm)
  have hyear := hfits t' ht
  have hmonth := t'.month_le
  have hday := t'.day_le
  have hhour := t'.hour_lt
  have hminute := t'.minute_lt
  have hsecond := t'.second_lt
  have hlength : monthLength t'.year t'.month ≤ 31 := by
    rw [monthLength]
    repeat' split
    all_goals omega
  have hfield : ∀ n : ℕ, n < 2 ^ 32 → n.toUInt32.toNat = n := fun n hn ↦ by
    rw [Nat.toUInt32_eq, UInt32.toNat_ofNat_of_lt' hn]
  rw [hr, Option.some.injEq] at hrun
  rw [hrun, YmdHms.key, hfield _ hyear, hfield _ (by omega), hfield _ (by omega),
    hfield _ (by omega), hfield _ (by omega), hfield _ (by omega)]
  rfl

/-- **Civil dates.** The conversion yields the fields of the time that many seconds after the epoch,
the only one there is, and keeps the order of seconds. -/
theorem civil_date_conversion :
    (∀ secs, YearFits secs → ∃ r t, epochSecsToYmdHms secs = some r ∧ r.key = t.key ∧
      SinceEpoch secs t ∧ ∀ t', SinceEpoch secs t' → t' = t) ∧
    ∀ secs secs', YearFits secs → YearFits secs' → secs < secs' →
      ∃ r r', epochSecsToYmdHms secs = some r ∧ epochSecsToYmdHms secs' = some r' ∧
        r.key < r'.key := by
  constructor
  · intro secs hfits
    obtain ⟨t, ht, hrun⟩ := epochSecsToYmdHms_spec secs
    exact ⟨_, t, hrun, key_of_spec hfits ht hrun, ht,
      fun t' ht' ↦ DateTime.seconds_injective (ht'.trans ht.symm)⟩
  · intro secs secs' hfits hfits' hlt
    obtain ⟨t, ht, hrun⟩ := epochSecsToYmdHms_spec secs
    obtain ⟨t', ht', hrun'⟩ := epochSecsToYmdHms_spec secs'
    refine ⟨_, _, hrun, hrun', ?_⟩
    rw [key_of_spec hfits ht hrun, key_of_spec hfits' ht' hrun', ← DateTime.seconds_lt_seconds_iff,
      ht, ht']
    exact Nat.add_lt_add_left (UInt64.lt_iff_toNat_lt.mp hlt) _

/-- More than a thousand million years fit. -/
theorem yearFits_of_lt {secs : UInt64} (h : secs.toNat < 2 ^ 56) : YearFits secs := by
  intro t ht
  have hadd := daysBeforeYear_add t.year
  rw [SinceEpoch, seconds_unixEpoch, DateTime.seconds, Date.number] at ht
  by_contra hyear
  have hle : 365 * t.year ≤ daysBeforeYear t.year := by omega
  omega

/-- The leap day of 2000 and the day after. -/
theorem civil_date_conversion_leapDay :
    (∃ r t, epochSecsToYmdHms 951782400 = some r ∧ r.key = t.key ∧ SinceEpoch 951782400 t ∧
      ∀ t', SinceEpoch 951782400 t' → t' = t) ∧
    ∃ r r', epochSecsToYmdHms 951782400 = some r ∧ epochSecsToYmdHms 951868800 = some r' ∧
      r.key < r'.key :=
  have h : YearFits 951782400 := yearFits_of_lt (by simp)
  have h' : YearFits 951868800 := yearFits_of_lt (by simp)
  ⟨civil_date_conversion.1 951782400 h, civil_date_conversion.2 951782400 951868800 h h' (by simp)⟩

end Kmux
