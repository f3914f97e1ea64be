import Servo.Framework.Calendar
import Servo.Framework.CountingLoop
import Servo.Framework.Text

/-! # Dates in Python

    What the SDK uses of `datetime`. Dates have years from 1 to 9999, and an
    addition that leads past the last of them raises, which is `none` here.
    A time of the day is counted in microseconds.
-/

namespace Servo.Python

/-! ### Dates -/

/-- `datetime.date`. -/
@[ext] structure Date extends Calendar.Date where
  min_year : 1 ≤ year
  max_year : year ≤ 9999
  deriving DecidableEq

/-- `date(year, month, day)`. -/
def date (year : Int) (month day : Nat) : Option Date :=
  if h : (1 ≤ month ∧ month ≤ 12) ∧ (1 ≤ day ∧ day ≤ Calendar.days_in_month year month) ∧
      1 ≤ year ∧ year ≤ 9999 then
    some ⟨⟨⟨year, month, h.1.1, h.1.2⟩, day, h.2.1.1, h.2.1.2⟩, h.2.2.1, h.2.2.2⟩
  else none

theorem of_date_eq_some {year : Int} {month day : Nat} {d : Date}
    (h : date year month day = some d) : d.year = year ∧ d.month = month ∧ d.day = day := by
  unfold date at h
  split at h
  · cases h
    exact ⟨rfl, rfl, rfl⟩
  · cases h

theorem date_isSome (year : Int) (month day : Nat)
    (h : (1 ≤ month ∧ month ≤ 12) ∧ (1 ≤ day ∧ day ≤ Calendar.days_in_month year month) ∧
      1 ≤ year ∧ year ≤ 9999) : ∃ d, date year month day = some d := ⟨_, dif_pos h⟩

theorem Date.day_number_inj {d d' : Date} (h : d.day_number = d'.day_number) : d = d' :=
  Date.ext (congrArg (·.year) (Calendar.Date.day_number_inj h))
    (congrArg (·.month) (Calendar.Date.day_number_inj h))
    (congrArg (·.day) (Calendar.Date.day_number_inj h))

/-- The first day of a month. -/
theorem Date.day_number_of_first {d : Date} (h : d.day = 1) :
    d.day_number = Calendar.month_start d.index := by
  unfold Calendar.Date.day_number
  rw [h]
  exact Int.add_zero _

/-- The last day of a month. -/
theorem Date.day_number_of_last {d : Date} (h : d.day = Calendar.days_in_month d.year d.month) :
    d.day_number + 1 = Calendar.month_start (d.index + 1) := by
  have hpos := d.day_pos
  rw [Calendar.month_start_index_succ, ← h]
  unfold Calendar.Date.day_number
  omega

/-- All days come before the year 10000. -/
theorem Date.day_number_le_max (d : Date) : d.day_number ≤ Calendar.days_before_year 10000 := by
  have hmono := (Calendar.strict_mono_of_lt_succ Calendar.days_before_year_lt).monotone
  have hyear := d.max_year
  exact d.toDate.day_number_le.trans (hmono (by omega))

/-- The day after, by the calendar. -/
def Date.tomorrow (d : Date) : Option Date :=
  (date d.year d.month (d.day + 1)).or
    ((date d.year (d.month + 1) 1).or (date (d.year + 1) 1 1))

/-- The first of the month after is the day after the last of a month. -/
theorem Date.day_number_of_next_month {d d' : Date}
    (hlast : d.day = Calendar.days_in_month d.year d.month) (hindex : d'.index = d.index + 1)
    (hfirst : d'.day = 1) : d'.day_number = d.day_number + 1 := by
  rw [day_number_of_last hlast, day_number_of_first hfirst, hindex]

theorem Date.day_number_of_tomorrow {d d' : Date} (h : d.tomorrow = some d') :
    d'.day_number = d.day_number + 1 := by
  have hpos := d.day_pos
  have hle := d.day_le
  have hmonth_pos := d.month_pos
  have hmonth_le := d.month_le
  have hmin := d.min_year
  have hmax := d.max_year
  unfold tomorrow at h
  by_cases hday : d.day + 1 ≤ Calendar.days_in_month d.year d.month
  · obtain ⟨x, hx⟩ := date_isSome d.year d.month (d.day + 1)
      ⟨⟨hmonth_pos, hmonth_le⟩, ⟨by omega, hday⟩, hmin, hmax⟩
    rw [hx, Option.some_or] at h
    cases h
    obtain ⟨hyear, hmonth, hday'⟩ := of_date_eq_some hx
    have hindex : d'.index = d.index := by
      unfold Calendar.Month.index
      rw [hyear, hmonth]
    unfold Calendar.Date.day_number
    rw [hindex, hday']
    omega
  · have hnone : date d.year d.month (d.day + 1) = none := dif_neg fun hall => hday hall.2.1.2
    have hlast : d.day = Calendar.days_in_month d.year d.month := by omega
    rw [hnone, Option.none_or, Option.or_eq_some_iff] at h
    rcases h with hnext | ⟨hnone', hnext⟩
    · obtain ⟨hyear, hmonth, hday'⟩ := of_date_eq_some hnext
      refine day_number_of_next_month hlast ?_ hday'
      unfold Calendar.Month.index
      omega
    · have hdecember : d.month = 12 := by
        by_contra hmonth
        have hfirst := Calendar.days_in_month_pos d.year (d.month + 1)
        obtain ⟨x, hx⟩ := date_isSome d.year (d.month + 1) 1
          ⟨⟨by omega, by omega⟩, ⟨le_refl 1, by omega⟩, hmin, hmax⟩
        rw [hnone'] at hx
        cases hx
      obtain ⟨hyear, hmonth, hday'⟩ := of_date_eq_some hnext
      refine day_number_of_next_month hlast ?_ hday'
      unfold Calendar.Month.index
      omega

/-- Only the last day of the year 9999 has no day after it. -/
theorem Date.tomorrow_isSome {d : Date} (h : d.day_number < Calendar.days_before_year 10000) :
    ∃ d', d.tomorrow = some d' := by
  have hpos := d.day_pos
  have hle := d.day_le
  have hmonth_pos := d.month_pos
  have hmonth_le := d.month_le
  have hmin := d.min_year
  have hmax := d.max_year
  unfold tomorrow
  by_cases hday : d.day + 1 ≤ Calendar.days_in_month d.year d.month
  · obtain ⟨x, hx⟩ := date_isSome d.year d.month (d.day + 1)
      ⟨⟨hmonth_pos, hmonth_le⟩, ⟨by omega, hday⟩, hmin, hmax⟩
    exact ⟨x, by rw [hx, Option.some_or]⟩
  · have hnone : date d.year d.month (d.day + 1) = none := dif_neg fun hall => hday hall.2.1.2
    rw [hnone, Option.none_or]
    have hfirst := Calendar.days_in_month_pos d.year (d.month + 1)
    have hfirst' := Calendar.days_in_month_pos (d.year + 1) 1
    by_cases hmonth : d.month + 1 ≤ 12
    · obtain ⟨x, hx⟩ := date_isSome d.year (d.month + 1) 1
        ⟨⟨by omega, hmonth⟩, ⟨le_refl 1, by omega⟩, hmin, hmax⟩
      exact ⟨x, by rw [hx, Option.some_or]⟩
    · have hnone' : date d.year (d.month + 1) 1 = none := dif_neg fun hall => hmonth hall.1.2
      rw [hnone', Option.none_or]
      refine date_isSome _ _ _ ⟨⟨le_refl 1, by decide⟩, ⟨le_refl 1, by omega⟩, by omega, ?_⟩
      -- otherwise it is the last of December 9999
      by_contra hyear
      have hlast : d.day_number + 1 = Calendar.month_start (d.index + 1) :=
        day_number_of_last (by omega)
      have hindex : d.index + 1 = 12 * 10000 := by
        unfold Calendar.Month.index
        omega
      rw [hindex, Calendar.month_start_year] at hlast
      omega

theorem Date.tomorrow_eq_some_iff {d d' : Date} :
    d.tomorrow = some d' ↔ d'.day_number = d.day_number + 1 := by
  constructor
  · exact day_number_of_tomorrow
  · intro h
    have hmax := d'.day_number_le_max
    obtain ⟨x, hx⟩ := tomorrow_isSome (d := d) (by omega)
    rw [hx, day_number_inj ((day_number_of_tomorrow hx).trans h.symm)]

/-- `date.max`. -/
def Date.max : Date :=
  ⟨⟨⟨9999, 12, by decide, by decide⟩, 31, by decide, by decide⟩, by decide, by decide⟩

/-- The days between two dates are dates. -/
theorem Date.exists_day_number_between (d d' : Date) {n : Int} (h : d.day_number ≤ n)
    (h' : n ≤ d'.day_number) : ∃ x : Date, x.day_number = n := by
  obtain ⟨x, hx⟩ := Calendar.Date.exists_day_number n
  have hlow : Calendar.days_before_year 1 < d.day_number :=
    ((Calendar.strict_mono_of_lt_succ Calendar.days_before_year_lt).monotone
      d.min_year).trans_lt d.days_before_year_lt
  have hhigh := d'.day_number_le_max
  refine ⟨⟨x, Calendar.Date.le_year (by omega), Calendar.Date.year_le ?_⟩, hx⟩
  show x.day_number ≤ Calendar.days_before_year 10000
  omega

/-- `self + timedelta(days=days)`. -/
def Date.add_days (self : Date) : Nat → Option Date
  | 0 => some self
  | days + 1 => (self.add_days days).bind tomorrow

theorem Date.add_days_eq_some_iff {d d' : Date} {days : Nat} :
    d.add_days days = some d' ↔ d'.day_number = d.day_number + days := by
  induction days generalizing d' with
  | zero =>
    rw [add_days, Option.some.injEq, Nat.cast_zero, Int.add_zero]
    exact ⟨fun h => by rw [h], fun h => (day_number_inj h).symm⟩
  | succ days ih =>
    rw [add_days, Option.bind_eq_some_iff]
    constructor
    · intro ⟨x, hx, hnext⟩
      have hnumber := ih.mp hx
      have hnext := tomorrow_eq_some_iff.mp hnext
      push_cast
      omega
    · intro h
      push_cast at h
      -- the day before it is a date
      obtain ⟨x, hx⟩ := exists_day_number_between d d' (n := d.day_number + days) (by omega)
        (by omega)
      exact ⟨x, ih.mpr hx, tomorrow_eq_some_iff.mpr (by omega)⟩

/-! ### Times -/

/-- `datetime.datetime`, without a timezone. -/
@[ext] structure Datetime where
  date : Date
  /-- Microseconds since midnight. -/
  time : Nat
  time_lt : time < 86400000000
  deriving DecidableEq

/-- What times are compared by. -/
def Datetime.timestamp (t : Datetime) : Int := 86400000000 * t.date.day_number + t.time

theorem Datetime.timestamp_inj {t t' : Datetime} (h : t.timestamp = t'.timestamp) : t = t' := by
  have hlt := t.time_lt
  have hlt' := t'.time_lt
  unfold timestamp at h
  exact Datetime.ext (Date.day_number_inj (by omega)) (by omega)

/-- The times between two times are times. -/
theorem Datetime.exists_timestamp_between (t t' : Datetime) {n : Int} (h : t.timestamp ≤ n)
    (h' : n ≤ t'.timestamp) : ∃ x : Datetime, x.timestamp = n := by
  have hlt := t.time_lt
  have hlt' := t'.time_lt
  unfold timestamp at h h'
  obtain ⟨d, hd⟩ := Date.exists_day_number_between t.date t'.date
    (n := n / 86400000000) (by omega) (by omega)
  refine ⟨⟨d, (n % 86400000000).toNat, by omega⟩, ?_⟩
  show 86400000000 * d.day_number + ((n % 86400000000).toNat : Int) = n
  omega

/-- The date at midnight. -/
def Date.midnight (d : Date) : Datetime := ⟨d, 0, by decide⟩

/-- `datetime.combine(self, datetime.max.time())`. -/
def Date.last_time (d : Date) : Datetime := ⟨d, 86399999999, by decide⟩

/-- `self + timedelta(hours=1)`. -/
def Datetime.add_hour (t : Datetime) : Option Datetime :=
  if h : t.time + 3600000000 < 86400000000 then some ⟨t.date, t.time + 3600000000, h⟩
  else t.date.tomorrow.map fun d =>
    ⟨d, t.time + 3600000000 - 86400000000, by have := t.time_lt; omega⟩

theorem Datetime.add_hour_eq_some_iff {t t' : Datetime} :
    t.add_hour = some t' ↔ t'.timestamp = t.timestamp + 3600000000 := by
  have hlt := t.time_lt
  have hlt' := t'.time_lt
  unfold add_hour
  split
  · next hsame =>
    constructor
    · intro h
      cases h
      unfold timestamp
      push_cast
      omega
    · intro h
      refine congrArg some (timestamp_inj ?_)
      rw [h]
      unfold timestamp
      push_cast
      omega
  · next hnext =>
    rw [Option.map_eq_some_iff]
    constructor
    · rintro ⟨d, hd, rfl⟩
      have hd := Date.tomorrow_eq_some_iff.mp hd
      unfold timestamp
      show 86400000000 * d.day_number + ((t.time + 3600000000 - 86400000000 : Nat) : Int) = _
      omega
    · intro h
      unfold timestamp at h
      refine ⟨t'.date, Date.tomorrow_eq_some_iff.mpr (by omega), ?_⟩
      exact Datetime.ext rfl (show t.time + 3600000000 - 86400000000 = t'.time by omega)

/-- `strftime`, with the directives of the default formats. -/
def Datetime.strftime_chars (t : Datetime) : List Char → String
  | '%' :: 'Y' :: rest => Text.pad 4 t.date.year.toNat ++ t.strftime_chars rest
  | '%' :: 'm' :: rest => Text.pad 2 t.date.month ++ t.strftime_chars rest
  | '%' :: 'd' :: rest => Text.pad 2 t.date.day ++ t.strftime_chars rest
  | '%' :: 'H' :: rest => Text.pad 2 (t.time / 3600000000) ++ t.strftime_chars rest
  | c :: rest => String.singleton c ++ t.strftime_chars rest
  | [] => ""

def Datetime.strftime (t : Datetime) (format : String) : String := t.strftime_chars format.toList

end Servo.Python
