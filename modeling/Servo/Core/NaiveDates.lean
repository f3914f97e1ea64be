import Servo.Core.PartitionKeys
import Servo.Core.StrMethods

/-! # The Dates that `chrono` Represents

    `NaiveDate` goes from the year -262143 to the year 262142. What `chrono`
    documents beyond what holds in the years between: which days there are,
    which arguments have no result, and what a text that is read as a date or
    a time looks like.

    Earlier times are counted from a leap second as from the second after it,
    later ones as from the second before it.
-/

namespace Servo

open Calendar

/-! ### The range -/

/-- The day of `NaiveDate::MIN`. -/
def first_day : Int := days_before_year (-262143) + 1

/-- The day of `NaiveDate::MAX`. -/
def last_day : Int := days_before_year 262143

/-- There is a date for this day. -/
def representable (day : Int) : Prop := first_day ≤ day ∧ day ≤ last_day

instance (day : Int) : Decidable (representable day) := inferInstanceAs (Decidable (_ ∧ _))

/-- The days of a year are representable, or none is. -/
theorem representable_iff_year {d : Date} :
    representable d.day_number ↔ -262143 ≤ d.year ∧ d.year ≤ 262142 := by
  unfold representable first_day last_day
  have hlow := d.days_before_year_lt
  have hhigh := d.day_number_le
  have hmono := (strict_mono_of_lt_succ days_before_year_lt).monotone
  constructor
  · intro ⟨hfirst, hlast⟩
    exact ⟨Date.le_year (by omega), Date.year_le hlast⟩
  · intro ⟨hfirst, hlast⟩
    have hbelow := hmono hfirst
    have habove := hmono (show d.year + 1 ≤ 262143 by omega)
    omega

theorem representable_of_supported {d : Date} (h : supported_year d.year) :
    representable d.day_number :=
  representable_iff_year.mpr ⟨by have := h.1; omega, by have := h.2; omega⟩

/-! ### Texts -/

/-- What a date in numbers consists of. -/
def is_date_char (c : Char) : Bool := c.isDigit || c = '-' || c = '+' || is_whitespace c

/-- "YYYY-MM-DDTHH:00:00". -/
def iso_hour_key (date : Date) (hour : Nat) : String :=
  date_key date ++ "T" ++ Text.pad 2 hour ++ ":00:00"

/-- "YYYY- MM-DD". -/
def spaced_key (date : Date) : String :=
  year_text date.year ++ "- " ++ Text.pad 2 date.month ++ "-" ++ Text.pad 2 date.day

/-- The formats in which times are read. -/
def time_formats : List String :=
  ["%Y-%m-%d %H:%M:%S", "%Y-%m-%d %H:00:00", "%Y-%m-%dT%H:%M:%S"]

/-! ### The laws -/

variable {NaiveDate NaiveDateTime : Type}

/-- The hour to which so many hours are added. -/
def counted_hour (hour leap_hour : NaiveDateTime → Int) (time : NaiveDateTime) (hours : Int) :
    Int :=
  (if hours < 0 then leap_hour time else hour time) + hours

/-- The functions of `chrono` work on the representable days of the calendar. Hours are counted
    through like days. -/
structure Chrono.Exact (chrono : Chrono NaiveDate NaiveDateTime) (date : NaiveDate → Date)
    (hour leap_hour : NaiveDateTime → Int) : Prop where
  date_representable : ∀ x, representable (date x).day_number
  exists_date : ∀ d : Date, representable d.day_number → ∃ x, date x = d
  from_ymd_opt : ∀ year month day x, chrono.from_ymd_opt year month day = some x ↔
    (date x).year = year ∧ (date x).month = month ∧ (date x).day = day
  from_isoywd_opt : ∀ year week x, chrono.from_isoywd_opt year week = some x ↔
    ∃ w : Week, w.year = year ∧ w.week = week ∧ (date x).day_number = monday w.index
  /-- There is no result if the day is not representable. -/
  add_days : ∀ x n x', chrono.add_days x n = some x' ↔
    (date x').day_number = (date x).day_number + n
  hour_representable : ∀ time, representable (hour time / 24)
  /-- A leap second may be the last of its hour. -/
  leap_hour_le : ∀ time, hour time ≤ leap_hour time ∧ leap_hour time ≤ hour time + 1
  add_hours_isSome : ∀ time n, (chrono.add_hours time n).isSome ↔
    representable (counted_hour hour leap_hour time n / 24)
  add_hours : ∀ time n time', chrono.add_hours time n = some time' →
    hour time' = counted_hour hour leap_hour time n
  format_date : ∀ x, chrono.format_date x "%Y-%m-%d" = date_key (date x)
  format_hour : ∀ time (d : Date) h, h < 24 → hour time = 24 * d.day_number + (h : Nat) →
    chrono.format_date_time time "%Y-%m-%d %H:00:00" = hour_key d h
  /-- What has been written is read back. -/
  parse_date : ∀ x, chrono.parse_date (date_key (date x)) "%Y-%m-%d" = some x
  /-- There may be blanks in front of a number. -/
  parse_spaced : ∀ x, chrono.parse_date (spaced_key (date x)) "%Y-%m-%d" = some x
  /-- Three numbers with hyphens between them, which may have signs and blanks in front. -/
  parse_date_chars : ∀ text, (chrono.parse_date text "%Y-%m-%d").isSome →
    (∀ c ∈ text.toList, is_date_char c = true) ∧ 2 ≤ text.toList.count '-'
  parse_hour : ∀ (d : Date) (h : Nat), representable d.day_number → h < 24 →
    ∃ time, chrono.parse_date_time (hour_key d h) "%Y-%m-%d %H:%M:%S" = some time ∧
      hour time = 24 * d.day_number + h
  parse_iso_hour : ∀ (d : Date) (h : Nat), representable d.day_number → h < 24 →
    ∃ time, chrono.parse_date_time (iso_hour_key d h) "%Y-%m-%dT%H:%M:%S" = some time ∧
      hour time = 24 * d.day_number + h
  parse_time_chars : ∀ text, ∀ format ∈ time_formats, (chrono.parse_date_time text format).isSome →
    ∀ c ∈ text.toList, is_date_char c = true ∨ c = ':' ∨ (c = 'T' ∧ 'T' ∈ format.toList)
  /-- The literal characters of a format are expected in the text. -/
  parse_literal : ∀ text format, ':' ∈ format.toList →
    (chrono.parse_date_time text format).isSome → ':' ∈ text.toList

namespace Chrono.Exact

variable {chrono : Chrono NaiveDate NaiveDateTime} {date : NaiveDate → Date}
  {hour leap_hour : NaiveDateTime → Int} (doc : chrono.Exact date hour leap_hour)
include doc

theorem exists_day {n : Int} (h : representable n) : ∃ x, (date x).day_number = n := by
  obtain ⟨d, hd⟩ := Date.exists_day_number n
  obtain ⟨x, hx⟩ := doc.exists_date d (by rwa [hd])
  exact ⟨x, by rw [hx, hd]⟩

theorem add_days_isSome {x : NaiveDate} {n : Int} :
    (chrono.add_days x n).isSome ↔ representable ((date x).day_number + n) := by
  rw [Option.isSome_iff_exists]
  constructor
  · intro ⟨x', hx'⟩
    rw [← (doc.add_days x n x').mp hx']
    exact doc.date_representable x'
  · intro h
    obtain ⟨x', hx'⟩ := doc.exists_day h
    exact ⟨x', (doc.add_days x n x').mpr hx'⟩

theorem from_ymd_opt_isSome {year : Int} {month day : Nat} :
    (chrono.from_ymd_opt year month day).isSome ↔
      ∃ d : Date, (d.year = year ∧ d.month = month ∧ d.day = day) ∧
        representable d.day_number := by
  rw [Option.isSome_iff_exists]
  constructor
  · intro ⟨x, hx⟩
    exact ⟨date x, (doc.from_ymd_opt _ _ _ x).mp hx, doc.date_representable x⟩
  · intro ⟨d, hd, hrepresentable⟩
    obtain ⟨x, rfl⟩ := doc.exists_date d hrepresentable
    exact ⟨x, (doc.from_ymd_opt _ _ _ x).mpr hd⟩

/-- What holds of the representable days holds of the supported years. -/
theorem documented : chrono.Documented date where
  from_ymd_opt d hd := by
    obtain ⟨x, hx⟩ := doc.exists_date d (representable_of_supported hd)
    refine ⟨x, (doc.from_ymd_opt _ _ _ x).mpr ?_, hx⟩
    rw [hx]
    exact ⟨rfl, rfl, rfl⟩
  from_isoywd_opt w hw := by
    have hbounds := w.monday_bounds
    have hmono := (strict_mono_of_lt_succ days_before_year_lt).monotone
    have hlow := hmono (show -262142 ≤ w.year from hw.1)
    have hhigh := hmono (show w.year + 1 ≤ 262142 by have := hw.2; omega)
    -- a year before and a year behind leave room for the days of the first and the last week
    have hfirst := days_before_year_succ (-262143)
    have hlast := days_before_year_succ 262142
    have hday : representable (monday w.index) := by
      unfold representable first_day last_day
      norm_num at hfirst hlast
      split at hfirst <;> split at hlast <;> omega
    obtain ⟨x, hx⟩ := doc.exists_day hday
    exact ⟨x, (doc.from_isoywd_opt _ _ x).mpr ⟨w, rfl, rfl, hx⟩, hx⟩
  add_days x n d hd hyear := by
    obtain ⟨x', hx'⟩ := doc.exists_date d (representable_of_supported hyear)
    exact ⟨x', (doc.add_days x n x').mpr (by rw [hx', hd]), hx'⟩
  format_date := doc.format_date
  parse_date := doc.parse_date
  parse_hour d h hyear hh := by
    obtain ⟨time, htime, -⟩ := doc.parse_hour d h (representable_of_supported hyear) hh
    exact Option.isSome_iff_exists.mpr ⟨time, htime⟩
  parse_literal := doc.parse_literal

/-- A text with a character that no date has. -/
theorem parse_date_none {text : String} {c : Char} (hc : c ∈ text.toList)
    (hchar : is_date_char c = false) : chrono.parse_date text "%Y-%m-%d" = none := by
  rw [← Option.not_isSome_iff_eq_none]
  intro hsome
  rw [(doc.parse_date_chars text hsome).1 c hc] at hchar
  cases hchar

theorem parse_daily_key {d : Date} (h : representable d.day_number) :
    ∃ x, Servo.parse_daily_key chrono (date_key d) = some x ∧ date x = d := by
  obtain ⟨x, rfl⟩ := doc.exists_date d h
  exact ⟨x, doc.parse_date x, rfl⟩

end Chrono.Exact

end Servo
