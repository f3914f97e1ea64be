import Mathlib.Order.SuccPred.IntervalSucc
import Mathlib.Algebra.Order.Group.Int
import Mathlib.Data.Int.ConditionallyCompleteOrder
import Mathlib.Data.Int.SuccPred
import Mathlib.Data.Int.LeastGreatest
import Mathlib.Data.Int.Order.Basic
import Mathlib.Tactic.Ring

/-! # The Proleptic Gregorian Calendar

    Days are numbered through, with 1 for the first of January of year 1. A
    calendar gives a day a name made of a number that counts up without end (a
    year, a month) and a position in what that number begins. What begins where
    is an increasing sequence of integers, so all of it follows from one
    observation: such a sequence cuts the integers into intervals, and every
    integer is in exactly one of them.

    * the year in which a day falls: `days_before_year`;
    * the month in which a day falls: `month_start`;
    * the ISO year in which a week falls: `first_week`.
-/

namespace Calendar

/-! ### Increasing sequences cut the integers -/

section intervals
variable {f : Int → Int} (hf : ∀ n, f n < f (n + 1))
include hf

theorem strict_mono_of_lt_succ : StrictMono f := strictMono_int_of_lt_succ hf

/-- The interval of an integer is unique. -/
theorem interval_unique {n m x : Int} (hn : f n ≤ x) (hn' : x < f (n + 1)) (hm : f m ≤ x)
    (hm' : x < f (m + 1)) : n = m := by
  have hmono := strict_mono_of_lt_succ hf
  have hle : n < m + 1 := hmono.lt_iff_lt.mp (hn.trans_lt hm')
  have hge : m < n + 1 := hmono.lt_iff_lt.mp (hm.trans_lt hn')
  omega

/-- Every integer is in an interval. -/
theorem exists_interval (x : Int) : ∃ n, f n ≤ x ∧ x < f (n + 1) := by
  have hmono := strict_mono_of_lt_succ hf
  -- the sequence grows at least as fast as the integers, on both sides
  have hup : ∀ k : Nat, f 0 + k ≤ f k := by
    intro k
    induction k with
    | zero => simp
    | succ k ih =>
      have hstep := hf k
      push_cast
      omega
  have hdown : ∀ k : Nat, f (-k) ≤ f 0 - k := by
    intro k
    induction k with
    | zero => simp
    | succ k ih =>
      have hstep := hf (-(k + 1))
      rw [show -((k : Int) + 1) + 1 = -k by ring] at hstep
      push_cast
      omega
  have hbelow : f (-((f 0 - x).toNat : Int)) ≤ x := by
    have h := hdown (f 0 - x).toNat
    omega
  have habove : ∀ n, f n ≤ x → n ≤ (x - f 0).toNat := by
    intro n hn
    by_contra hlarge
    have hlt := hmono (not_le.mp hlarge)
    have h := hup (x - f 0).toNat
    omega
  obtain ⟨n, hn, hmax⟩ := Int.exists_greatest_of_bdd ⟨_, habove⟩ ⟨_, hbelow⟩
  refine ⟨n, hn, ?_⟩
  by_contra hle
  have := hmax (n + 1) (not_lt.mp hle)
  omega

/-- The intervals from `s` to `e` make up the interval from the start of the first to the end
    of the last. -/
theorem exists_interval_between {s e x : Int} :
    (∃ n, s ≤ n ∧ n ≤ e ∧ f n ≤ x ∧ x < f (n + 1)) ↔ s ≤ e ∧ f s ≤ x ∧ x < f (e + 1) := by
  have hmono := strict_mono_of_lt_succ hf
  constructor
  · intro ⟨n, hs, he, hn, hn'⟩
    have hlow : f s ≤ f n := hmono.monotone hs
    have hhigh : f (n + 1) ≤ f (e + 1) := hmono.monotone (by omega)
    omega
  · rintro ⟨-, hs, he⟩
    obtain ⟨n, hn, hn'⟩ := exists_interval hf x
    have hlow : s < n + 1 := hmono.lt_iff_lt.mp (hs.trans_lt hn')
    have hhigh : n < e + 1 := hmono.lt_iff_lt.mp (hn.trans_lt he)
    exact ⟨n, by omega, by omega, hn, hn'⟩

end intervals

/-! ### Years and months -/

/-- Leap years. -/
def is_leap_year (year : Int) : Bool :=
  (year % 4 = 0 && year % 100 ≠ 0) || year % 400 = 0

/-- The days before the first of January. -/
def days_before_year (year : Int) : Int :=
  365 * (year - 1) + (year - 1) / 4 - (year - 1) / 100 + (year - 1) / 400

/-- The days of a month, which counts from 1. -/
def days_in_month (year : Int) (month : Nat) : Nat :=
  match month with
  | 4 | 6 | 9 | 11 => 30
  | 2 => if is_leap_year year then 29 else 28
  | _ => 31

theorem days_before_year_succ (year : Int) :
    days_before_year (year + 1) =
      days_before_year year + 365 + if is_leap_year year then 1 else 0 := by
  unfold days_before_year is_leap_year
  simp only [Bool.or_eq_true, Bool.and_eq_true, decide_eq_true_eq, ne_eq, decide_not,
    Bool.not_eq_true', decide_eq_false_iff_not]
  split <;> omega

theorem days_before_year_lt (year : Int) : days_before_year year < days_before_year (year + 1) := by
  rw [days_before_year_succ]
  split <;> omega

/-- The days of a year before the first of a month. -/
def days_before_month (year : Int) (month : Nat) : Nat :=
  ((List.range (month - 1)).map fun m => days_in_month year (m + 1)).sum

/-- The number of the first day of a month, the months of all years counted through. -/
def month_start (n : Int) : Int :=
  days_before_year (n / 12) + days_before_month (n / 12) ((n % 12).toNat + 1) + 1

theorem days_in_month_pos (year : Int) (month : Nat) : 28 ≤ days_in_month year month := by
  unfold days_in_month
  split
  all_goals first | omega | (split <;> omega)

theorem days_in_month_le (year : Int) (month : Nat) : days_in_month year month ≤ 31 := by
  unfold days_in_month
  split
  all_goals first | omega | (split <;> omega)

theorem days_before_month_succ (year : Int) (month : Nat) :
    days_before_month year (month + 2) =
      days_before_month year (month + 1) + days_in_month year (month + 1) := by
  simp [days_before_month, List.range_succ]

/-- A year has the days of its months. -/
theorem days_before_month_thirteen (year : Int) :
    (days_before_month year 13 : Int) = 365 + if is_leap_year year then 1 else 0 := by
  simp only [days_before_month, List.range_succ]
  cases hleap : is_leap_year year <;> simp [days_in_month, hleap]

theorem month_start_succ (n : Int) :
    month_start (n + 1) = month_start n + days_in_month (n / 12) ((n % 12).toNat + 1) := by
  have hmod : 0 ≤ n % 12 := Int.emod_nonneg n (by decide)
  by_cases hlast : n % 12 = 11
  · have hyear : (n + 1) / 12 = n / 12 + 1 := by omega
    have hmonth : ((n + 1) % 12).toNat = 0 := by omega
    have hsum : days_before_month (n / 12) 13 = days_before_month (n / 12) (11 + 1) +
        days_in_month (n / 12) (11 + 1) := days_before_month_succ (n / 12) 11
    have hdays := days_before_month_thirteen (n / 12)
    have hzero : days_before_month (n / 12 + 1) (0 + 1) = 0 := rfl
    unfold month_start
    rw [hyear, hmonth, days_before_year_succ, hzero, show (n % 12).toNat = 11 by omega]
    omega
  · have hyear : (n + 1) / 12 = n / 12 := by omega
    have hmonth : ((n + 1) % 12).toNat = (n % 12).toNat + 1 := by omega
    unfold month_start
    rw [hyear, hmonth, days_before_month_succ]
    push_cast
    ring

theorem month_start_lt (n : Int) : month_start n < month_start (n + 1) := by
  have hpos := days_in_month_pos (n / 12) ((n % 12).toNat + 1)
  rw [month_start_succ]
  omega

/-- A year begins with its first month. -/
theorem month_start_year (year : Int) : month_start (12 * year) = days_before_year year + 1 := by
  have hyear : 12 * year / 12 = year := by omega
  have hmonth : (12 * year % 12).toNat = 0 := by omega
  have hzero : days_before_month year (0 + 1) = 0 := rfl
  unfold month_start
  rw [hyear, hmonth, hzero]
  omega

/-- A month of the calendar. -/
@[ext] structure Month where
  year : Int
  month : Nat
  month_pos : 1 ≤ month
  month_le : month ≤ 12
  deriving DecidableEq

/-- The months of all years, counted through. -/
def Month.index (m : Month) : Int := 12 * m.year + (m.month - 1 : Nat)

theorem Month.year_eq (m : Month) : m.year = m.index / 12 := by
  have := m.month_le
  unfold Month.index
  omega

theorem Month.month_eq (m : Month) : m.month = (m.index % 12).toNat + 1 := by
  have := m.month_pos
  have := m.month_le
  unfold Month.index
  omega

theorem Month.index_inj {m m' : Month} (h : m.index = m'.index) : m = m' :=
  Month.ext (by rw [m.year_eq, m'.year_eq, h]) (by rw [m.month_eq, m'.month_eq, h])

theorem Month.exists_index (n : Int) : ∃ m : Month, m.index = n := by
  refine ⟨⟨n / 12, (n % 12).toNat + 1, by omega, by omega⟩, ?_⟩
  show 12 * (n / 12) + ((n % 12).toNat + 1 - 1 : Nat) = n
  omega

theorem month_start_index_succ (m : Month) :
    month_start (m.index + 1) = month_start m.index + days_in_month m.year m.month := by
  rw [month_start_succ, ← m.year_eq, ← m.month_eq]

/-! ### Days -/

/-- A day of the calendar. -/
@[ext] structure Date extends Month where
  day : Nat
  day_pos : 1 ≤ day
  day_le : day ≤ days_in_month year month
  deriving DecidableEq

/-- The number of the day, counted from the first of January of year 1. -/
def Date.day_number (d : Date) : Int := month_start d.index + (d.day - 1 : Nat)

theorem Date.month_start_le (d : Date) : month_start d.index ≤ d.day_number := by
  unfold day_number
  omega

theorem Date.lt_month_start (d : Date) : d.day_number < month_start (d.index + 1) := by
  have hday := d.day_le
  have hpos := d.day_pos
  rw [month_start_index_succ]
  unfold day_number
  omega

theorem Date.day_number_inj {d d' : Date} (h : d.day_number = d'.day_number) : d = d' := by
  have hmonth : d.toMonth = d'.toMonth := Month.index_inj <|
    interval_unique month_start_lt d.month_start_le d.lt_month_start (h ▸ d'.month_start_le)
      (h ▸ d'.lt_month_start)
  have hday : d.day = d'.day := by
    have hpos := d.day_pos
    have hpos' := d'.day_pos
    unfold day_number at h
    rw [hmonth] at h
    omega
  obtain ⟨m, day, hd⟩ := d
  obtain ⟨m', day', hd'⟩ := d'
  cases hmonth
  cases hday
  rfl

theorem Date.exists_day_number (n : Int) : ∃ d : Date, d.day_number = n := by
  obtain ⟨i, hi, hi'⟩ := exists_interval month_start_lt n
  obtain ⟨m, rfl⟩ := Month.exists_index i
  rw [month_start_index_succ] at hi'
  refine ⟨⟨m, (n - month_start m.index).toNat + 1, by omega, by omega⟩, ?_⟩
  show month_start m.index + ((n - month_start m.index).toNat + 1 - 1 : Nat) = n
  omega

/-- The days of a month. -/
theorem Date.day_number_of_month (m : Month) {day : Nat} (hpos : 1 ≤ day)
    (hle : day ≤ days_in_month m.year m.month) :
    (⟨m, day, hpos, hle⟩ : Date).day_number = month_start m.index + (day - 1 : Nat) := rfl

/-- The year of a day. -/
theorem Date.days_before_year_lt (d : Date) : days_before_year d.year < d.day_number := by
  have hle : month_start (12 * d.year) ≤ month_start d.index :=
    (strict_mono_of_lt_succ month_start_lt).monotone (by unfold Month.index; omega)
  have hstart := d.month_start_le
  rw [month_start_year] at hle
  omega

theorem Date.day_number_le (d : Date) : d.day_number ≤ days_before_year (d.year + 1) := by
  have hmonth := d.month_le
  have hle : month_start (d.index + 1) ≤ month_start (12 * (d.year + 1)) :=
    (strict_mono_of_lt_succ month_start_lt).monotone (by unfold Month.index; omega)
  have hstart := d.lt_month_start
  rw [month_start_year] at hle
  omega

theorem Date.year_le {d : Date} {year : Int} (h : d.day_number ≤ days_before_year (year + 1)) :
    d.year ≤ year := by
  have hlt := (strict_mono_of_lt_succ Calendar.days_before_year_lt).lt_iff_lt.mp
    (d.days_before_year_lt.trans_le h)
  omega

theorem Date.le_year {d : Date} {year : Int} (h : days_before_year year < d.day_number) :
    year ≤ d.year := by
  have hlt := (strict_mono_of_lt_succ Calendar.days_before_year_lt).lt_iff_lt.mp
    (h.trans_le d.day_number_le)
  omega

/-! ### ISO weeks -/

/-- The Monday of the week in which the fourth of January falls. Day 1 is a Monday. -/
def first_monday (year : Int) : Int :=
  days_before_year year + 4 - (days_before_year year + 3) % 7

/-- The number of the first week of an ISO year, the weeks counted through. -/
def first_week (year : Int) : Int := (first_monday year - 1) / 7

/-- The number of the Monday of a week. -/
def monday (week : Int) : Int := 7 * week + 1

theorem monday_first_week (year : Int) : monday (first_week year) = first_monday year := by
  unfold monday first_week first_monday
  omega

/-- The weeks of an ISO year. -/
def weeks_in_year (year : Int) : Nat := (first_week (year + 1) - first_week year).toNat

theorem first_week_succ (year : Int) :
    first_week (year + 1) = first_week year + weeks_in_year year ∧
    52 ≤ weeks_in_year year ∧ weeks_in_year year ≤ 53 := by
  have hsucc := days_before_year_succ year
  have hleap : 0 ≤ (if is_leap_year year then 1 else 0 : Int) ∧
      (if is_leap_year year then 1 else 0 : Int) ≤ 1 := by split <;> decide
  unfold weeks_in_year first_week first_monday
  omega

theorem first_week_lt (year : Int) : first_week year < first_week (year + 1) := by
  have h := first_week_succ year
  omega

/-- A week of an ISO year. -/
@[ext] structure Week where
  year : Int
  week : Nat
  week_pos : 1 ≤ week
  week_le : week ≤ weeks_in_year year
  deriving DecidableEq

/-- The weeks of all years, counted through. -/
def Week.index (w : Week) : Int := first_week w.year + (w.week - 1 : Nat)

theorem Week.first_week_le (w : Week) : first_week w.year ≤ w.index := by
  unfold index
  omega

theorem Week.lt_first_week (w : Week) : w.index < first_week (w.year + 1) := by
  have hpos := w.week_pos
  have hle := w.week_le
  have hsucc := first_week_succ w.year
  unfold index
  omega

theorem Week.index_inj {w w' : Week} (h : w.index = w'.index) : w = w' := by
  have hyear : w.year = w'.year :=
    interval_unique first_week_lt w.first_week_le w.lt_first_week (h ▸ w'.first_week_le)
      (h ▸ w'.lt_first_week)
  refine Week.ext hyear ?_
  have hpos := w.week_pos
  have hpos' := w'.week_pos
  unfold index at h
  rw [hyear] at h
  omega

theorem Week.exists_index (n : Int) : ∃ w : Week, w.index = n := by
  obtain ⟨year, hi, hi'⟩ := exists_interval first_week_lt n
  have hsucc := first_week_succ year
  refine ⟨⟨year, (n - first_week year).toNat + 1, by omega, by omega⟩, ?_⟩
  show first_week year + ((n - first_week year).toNat + 1 - 1 : Nat) = n
  omega

/-- A week of an ISO year begins at most three days before the year, and ends at most three
    days after it. -/
theorem Week.monday_bounds (w : Week) : days_before_year w.year - 2 ≤ monday w.index ∧
    monday w.index + 6 ≤ days_before_year (w.year + 1) + 3 := by
  have hlow := w.first_week_le
  have hhigh := w.lt_first_week
  have hmonday := monday_first_week w.year
  have hmonday' := monday_first_week (w.year + 1)
  unfold monday at hmonday hmonday' ⊢
  unfold first_monday at hmonday hmonday'
  omega

end Calendar
