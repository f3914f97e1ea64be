import Servo.Core.PartitionKeys
import Servo.Framework.Fallible
import Mathlib.Tactic.IntervalCases

/-! # The Mapping on Periods

    Between two granularities with an inferred mapping, a period of the coarser
    one consists of consecutive periods of the finer one, and what follows it
    consists of those that follow. `first_part` says which is the first. The
    mapping gives the keys of these parts, in their order, with one exception:
    in the months of a year that has less than four digits the year is written
    without zeros.
-/

namespace Servo

open Calendar

variable {NaiveDate NaiveDateTime : Type} {chrono : Chrono NaiveDate NaiveDateTime}
  {date : NaiveDate → Date}

/-- The first of the periods of granularity `up` that the `n`-th period of granularity `down`
    consists of. -/
def first_part : TimeGranularity → TimeGranularity → Int → Int
  | .Daily, .Weekly, n => monday n
  | .Daily, .Monthly, n => month_start n
  | .Hourly, .Daily, n => 24 * n
  | .Monthly, .Yearly, n => 12 * n
  | _, _, n => n

theorem first_part_lt (up down : TimeGranularity) (n : Int) :
    first_part up down n < first_part up down (n + 1) := by
  unfold first_part
  split
  · show 7 * n + 1 < 7 * (n + 1) + 1
    omega
  · exact month_start_lt n
  · show 24 * n < 24 * (n + 1)
    omega
  · show 12 * n < 12 * (n + 1)
    omega
  · exact Int.lt_succ n

/-- The keys of the parts of the `n`-th period. -/
noncomputable def part_keys (up down : TimeGranularity) (n : Int) : List String :=
  (List.range (first_part up down (n + 1) - first_part up down n).toNat).map fun (i : Nat) =>
    (Period.nth up (first_part up down n + i)).key

/-! ### Inferred mappings -/

/-- Which mappings are inferred between time partitions. -/
theorem infer_mapping_cases {up down : TimeGranularity} {mapping : PartitionMapping}
    (h : infer_mapping (.Time up) (.Time down) = .ok mapping) :
    (up = down ∧ mapping = .Identity) ∨
    (up = .Daily ∧ down = .Weekly ∧ mapping = .TimeAggregation 7 up down) ∨
    (up = .Daily ∧ down = .Monthly ∧ mapping = .TimeAggregation 30 up down) ∨
    (up = .Hourly ∧ down = .Daily ∧ mapping = .TimeAggregation 24 up down) ∨
    (up = .Monthly ∧ down = .Yearly ∧ mapping = .TimeAggregation 12 up down) := by
  cases up <;> cases down <;> cases h <;> simp

/-! ### Days -/

namespace Chrono.Documented

variable (doc : chrono.Documented date)
include doc

/-- Consecutive days. -/
theorem daily_keys {x : NaiveDate} {n : Int} (count : Nat) (hx : (date x).day_number = n)
    (hlow : days_before_year (-2) < n) (hhigh : n + count ≤ days_before_year 10002 + 1) :
    Servo.daily_keys chrono x count =
      some ((List.range count).map fun (i : Nat) => (Period.nth .Daily (n + i)).key) := by
  refine Fallible.mapM_eq_some_map fun i hi => ?_
  have hcount := List.mem_range.mp hi
  obtain ⟨d, hd⟩ := Date.exists_day_number (n + i)
  have hyear : supported_year d.year := supported_of_day_number (by omega) (by omega)
  obtain ⟨x', hx', hdate⟩ := doc.add_days x i d (by rw [hd, hx]) hyear
  rw [hx', Option.map_some, doc.format_date, hdate]
  exact congrArg (fun p => some (Period.key p)) (Period.eq_nth (p := .day d) rfl hd)

end Chrono.Documented

/-- Around the years of four digits there is room. -/
theorem room_for_year {y : Int} (h : 0 ≤ y) (h' : y ≤ 9999) :
    days_before_year (-2) < days_before_year y - 2 ∧
      days_before_year (y + 1) + 3 ≤ days_before_year 10002 := by
  have hmono := (strict_mono_of_lt_succ days_before_year_lt).monotone
  have hlow : days_before_year 0 ≤ days_before_year y := hmono h
  have hhigh : days_before_year (y + 1) ≤ days_before_year 10000 := hmono (by omega)
  rw [show days_before_year 0 = -366 by decide] at hlow
  rw [show days_before_year 10000 = 3652059 by decide] at hhigh
  rw [show days_before_year (-2) = -1096 by decide, show days_before_year 10002 = 3652790 by decide]
  omega

/-- The code's length of a month is that of the calendar. -/
theorem days_in_month_eq (m : Month) :
    Servo.days_in_month m.year m.month = Calendar.days_in_month m.year m.month := by
  have hpos := m.month_pos
  have hle := m.month_le
  generalize m.month = month at hpos hle ⊢
  interval_cases month <;> rfl

/-! ### Keys that can be parsed -/

theorem map_of_weekly_key {key : String} {monday : NaiveDate}
    (h : parse_weekly_key chrono key = some monday) :
    map_time_aggregation chrono key .Daily .Weekly = Servo.daily_keys chrono monday 7 := by
  delta map_time_aggregation
  simp only [h]

theorem map_of_monthly_key {key : String} {year : Int} {month : Nat}
    (h : parse_monthly_key key = some (year, month)) :
    map_time_aggregation chrono key .Daily .Monthly =
      (chrono.from_ymd_opt year month 1).bind fun start =>
        Servo.daily_keys chrono start (Servo.days_in_month year month) := by
  delta map_time_aggregation
  simp only [h]

theorem map_of_daily_key {key : String} {date : NaiveDate}
    (h : Servo.parse_daily_key chrono key = some date) :
    map_time_aggregation chrono key .Hourly .Daily =
      some ((List.range 24).map fun h =>
        chrono.format_date date "%Y-%m-%d" ++ " " ++ Text.pad 2 h ++ ":00:00") := by
  delta map_time_aggregation
  simp only [h]

theorem map_of_yearly_key {key : String} {year : Int} (h : parse_i32 key = some year) :
    map_time_aggregation chrono key .Monthly .Yearly =
      some ((List.range 12).map fun m => toString year ++ "-" ++ Text.pad 2 (m + 1)) := by
  delta map_time_aggregation
  simp only [h]

/-! ### The parts of a period -/

namespace Chrono.Documented

variable (doc : chrono.Documented date)
include doc

/-- The days of a week. -/
theorem map_week {w : Week} (h : 0 ≤ w.year) (h' : w.year ≤ 9999) :
    map_time_aggregation chrono (Period.week w).key .Daily .Weekly =
      some (part_keys .Daily .Weekly w.index) := by
  obtain ⟨x, hx, hday⟩ := doc.from_isoywd_opt w ⟨by omega, by omega⟩
  have hbounds := w.monday_bounds
  have hroom := room_for_year h h'
  have hkeys := doc.daily_keys 7 hday (by omega) (by push_cast; omega)
  have hkey : parse_weekly_key chrono (Period.week w).key = some x := by
    simp only [parse_weekly_key, parse_week_key h h', hx]
  rw [map_of_weekly_key hkey, hkeys]
  have hcount : (monday (w.index + 1) - monday w.index).toNat = 7 := by
    unfold monday
    omega
  rw [part_keys, first_part, first_part, hcount]

/-- The days of a month. -/
theorem map_month {m : Month} (h : 0 ≤ m.year) (h' : m.year ≤ 9999) {key : String}
    (hkey : parse_monthly_key key = some (m.year, m.month)) :
    map_time_aggregation chrono key .Daily .Monthly = some (part_keys .Daily .Monthly m.index) := by
  have hpos := days_in_month_pos m.year m.month
  let first : Date := ⟨m, 1, le_refl 1, by omega⟩
  obtain ⟨x, hx, hdate⟩ := doc.from_ymd_opt first
    ⟨show (-262142 : Int) ≤ m.year by omega, show m.year ≤ 262141 by omega⟩
  have hday : (date x).day_number = month_start m.index := by
    rw [hdate]
    exact Int.add_zero _
  -- the last day of the month is a day of its year
  let last : Date := ⟨m, Calendar.days_in_month m.year m.month, by omega, le_refl _⟩
  have hlast : last.day_number = month_start m.index +
      (Calendar.days_in_month m.year m.month - 1 : Nat) := rfl
  have hfirst : first.day_number = month_start m.index := Int.add_zero _
  have hlow : days_before_year m.year < first.day_number := first.days_before_year_lt
  have hhigh : last.day_number ≤ days_before_year (m.year + 1) := last.day_number_le
  have hroom := room_for_year h h'
  have hkeys := doc.daily_keys (Calendar.days_in_month m.year m.month) hday
    (by omega) (by omega)
  have hopen : chrono.from_ymd_opt m.year m.month 1 = some x := hx
  rw [map_of_monthly_key hkey, hopen, Option.bind_some, days_in_month_eq, hkeys]
  have hcount : (month_start (m.index + 1) - month_start m.index).toNat =
      Calendar.days_in_month m.year m.month := by
    rw [month_start_index_succ]
    omega
  rw [part_keys, first_part, first_part, hcount]

/-- The hours of a day. -/
theorem map_day {x : NaiveDate} {key : String} (hkey : Servo.parse_daily_key chrono key = some x) :
    map_time_aggregation chrono key .Hourly .Daily =
      some (part_keys .Hourly .Daily (date x).day_number) := by
  simp only [map_of_daily_key hkey, doc.format_date]
  have hcount : (24 * ((date x).day_number + 1) - 24 * (date x).day_number).toNat = 24 := by omega
  rw [part_keys, first_part, first_part, hcount]
  refine congrArg some (List.map_congr_left fun h hh => ?_)
  exact congrArg Period.key
    (Period.eq_nth (p := .hour (date x) h (List.mem_range.mp hh)) rfl rfl)

end Chrono.Documented

/-- The months of a year are written with as many digits as the year has. -/
theorem map_year {y : Int} (h : 0 ≤ y) (h' : y ≤ 9999) :
    map_time_aggregation chrono (Period.year y).key .Monthly .Yearly =
      some ((List.range 12).map fun (m : Nat) => toString y ++ "-" ++ Text.pad 2 (m + 1)) := by
  rw [map_of_yearly_key (parse_year_key h h')]

theorem toString_year {y : Int} (h : 0 ≤ y) : toString y = y.toNat.repr := by
  rw [Int.toString_eq_repr, Int.repr_eq_if, if_pos h]

theorem map_year_of_four_digits {y : Int} (h : 1000 ≤ y) (h' : y ≤ 9999) :
    map_time_aggregation chrono (Period.year y).key .Monthly .Yearly =
      some (part_keys .Monthly .Yearly y) := by
  rw [map_year (by omega) h']
  have hcount : (12 * (y + 1) - 12 * y).toNat = 12 := by omega
  rw [part_keys, first_part, first_part, hcount]
  refine congrArg some (List.map_congr_left fun m hm => ?_)
  have hmonth := List.mem_range.mp hm
  let month : Month := ⟨y, m + 1, by omega, by omega⟩
  have hkey : (Period.month month).key = toString y ++ "-" ++ Text.pad 2 (m + 1) := by
    show year_text y ++ "-" ++ Text.pad 2 (m + 1) = _
    rw [year_text_of_digits (by omega) h', toString_year (by omega),
      Text.pad_eq_repr (by omega) (by decide)]
  rw [← hkey]
  exact congrArg Period.key (Period.eq_nth (p := .month month) rfl rfl)

/-! ### Any inferred mapping -/

theorem first_part_self (g : TimeGranularity) (n : Int) : first_part g g n = n := by
  cases g <;> rfl

/-- A period consists of itself. -/
theorem part_keys_self (p : Period) : part_keys p.granularity p.granularity p.index = [p.key] := by
  have hcount : (p.index + 1 - p.index).toNat = 1 := by omega
  rw [part_keys, first_part_self, first_part_self, hcount]
  exact congrArg (fun q => [Period.key q]) (Period.eq_nth rfl (Int.add_zero _).symm).symm

/-- **What a mapping makes of a key**: the keys of the parts of the period. -/
theorem map_partition_key (doc : chrono.Documented date) {up down : TimeGranularity}
    {mapping : PartitionMapping} (hmap : infer_mapping (.Time up) (.Time down) = .ok mapping)
    {p : Period} (hp : p.granularity = down) (h : 0 ≤ p.year_of) (h' : p.year_of ≤ 9999)
    (hyear : up = .Monthly → down = .Yearly → 1000 ≤ p.year_of) :
    mapping.map_partition chrono p.key = some (part_keys up down p.index) := by
  rcases infer_mapping_cases hmap with ⟨rfl, rfl⟩ | ⟨rfl, rfl, rfl⟩ | ⟨rfl, rfl, rfl⟩ |
    ⟨rfl, rfl, rfl⟩ | ⟨rfl, rfl, rfl⟩
  · subst hp
    exact congrArg some (part_keys_self p).symm
  · cases p with
    | week w => exact doc.map_week h h'
    | _ => cases hp
  · cases p with
    | month m => exact doc.map_month h h' (parse_month_key h h')
    | _ => cases hp
  · cases p with
    | day d =>
      have hsupported : supported_year d.year := by
        have hlow : (0 : Int) ≤ d.year := h
        have hhigh : d.year ≤ (9999 : Int) := h'
        exact ⟨by omega, by omega⟩
      obtain ⟨x, hx, rfl⟩ := doc.parse_daily_key hsupported
      exact doc.map_day hx
    | _ => cases hp
  · cases p with
    | year y => exact (map_year_of_four_digits (hyear rfl rfl) h' :
      map_time_aggregation chrono (Period.year y).key .Monthly .Yearly = _)
    | _ => cases hp

/-- The parts of a period are the periods from its first part up to that of the next. -/
theorem mem_part_keys {up down : TimeGranularity} {n : Int} {key : String} :
    key ∈ part_keys up down n ↔ ∃ q : Period, q.granularity = up ∧
      first_part up down n ≤ q.index ∧ q.index < first_part up down (n + 1) ∧ q.key = key := by
  rw [part_keys, List.mem_map]
  constructor
  · rintro ⟨i, hi, rfl⟩
    have hcount := List.mem_range.mp hi
    have hindex := Period.index_nth up (first_part up down n + i)
    exact ⟨_, Period.granularity_nth up _, by omega, by omega, rfl⟩
  · rintro ⟨q, hq, hlow, hhigh, rfl⟩
    refine ⟨(q.index - first_part up down n).toNat, List.mem_range.mpr (by omega), ?_⟩
    exact congrArg Period.key (Period.eq_nth hq (by omega)).symm

/-- The first of the keys. -/
theorem head_part_keys (up down : TimeGranularity) (n : Int) :
    (part_keys up down n).head? = some (Period.nth up (first_part up down n)).key := by
  have hlt := first_part_lt up down n
  obtain ⟨count, hcount⟩ : ∃ count : Nat,
      (first_part up down (n + 1) - first_part up down n).toNat = count + 1 :=
    ⟨(first_part up down (n + 1) - first_part up down n).toNat - 1, by omega⟩
  rw [part_keys, hcount, List.range_succ_eq_map]
  show some (Period.nth up (first_part up down n + (0 : Nat))).key = _
  rw [Int.natCast_zero, Int.add_zero]

/-- The last of the keys. -/
theorem last_part_keys (up down : TimeGranularity) (n : Int) :
    (part_keys up down n).getLast? = some (Period.nth up (first_part up down (n + 1) - 1)).key := by
  have hlt := first_part_lt up down n
  obtain ⟨count, hcount⟩ : ∃ count : Nat,
      (first_part up down (n + 1) - first_part up down n).toNat = count + 1 :=
    ⟨(first_part up down (n + 1) - first_part up down n).toNat - 1, by omega⟩
  rw [part_keys, hcount, List.range_succ, List.map_append, List.map_singleton,
    List.getLast?_append, List.getLast?_singleton, Option.some_or]
  exact congrArg (fun i => some (Period.nth up i).key) (by omega)

end Servo
