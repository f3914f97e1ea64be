import Servo.Core.BoundedCalendar
import Servo.Core.PeriodMapping

/-! # What a Mapping Returns

    A mapping panics when it would have to write a day that `chrono` does not
    represent, and it does nothing else that can panic. `StaysInCalendar` says
    when that does not happen: for a window it is the farthest day or hour that
    counts, for an aggregation the last day.

    `mapped_keys` are the keys otherwise. A key that cannot be read is mapped to
    itself.
-/

namespace Servo

open Calendar

variable {NaiveDate NaiveDateTime : Type} (chrono : Chrono NaiveDate NaiveDateTime)
  (date : NaiveDate → Date) (hour leap_hour : NaiveDateTime → Int)

/-! ### The keys -/

/-- The keys of so many days, from a first one on. -/
noncomputable def days_from (n : Int) (count : Nat) : List String :=
  (List.range count).map fun (i : Nat) => (Period.nth .Daily (n + i)).key

/-- The keys that are returned. -/
noncomputable def mapped_keys (mapping : PartitionMapping) (key : String) : List String :=
  match mapping with
  | .TimeAggregation _ .Daily .Weekly =>
    ((parse_weekly_key chrono key).map fun monday =>
      days_from (date monday).day_number 7).getD [key]
  | .TimeAggregation _ .Daily .Monthly =>
    ((parse_monthly_key key).map fun month =>
      days_from (month_start (12 * month.1 + (month.2 - 1 : Nat)))
        (days_in_month month.1 month.2)).getD [key]
  | .TimeAggregation _ .Hourly .Daily =>
    ((parse_daily_key chrono key).map fun x =>
      (List.range 24).map fun h => hour_key (date x) h).getD [key]
  | .TimeAggregation _ .Monthly .Yearly =>
    ((parse_i32 key).map fun year =>
      (List.range 12).map fun m => toString year ++ "-" ++ Text.pad 2 (m + 1)).getD [key]
  | .TimeWindow size .Daily =>
    ((parse_daily_key chrono key).map fun x => (List.range size).map fun (i : Nat) =>
      (Period.nth .Daily ((date x).day_number + -(i : Int))).key).getD [key]
  | .TimeWindow size .Hourly =>
    ((parse_hourly_key chrono key).map fun time => (List.range size).map fun (i : Nat) =>
      (Period.nth .Hourly (counted_hour hour leap_hour time (-(i : Int)))).key).getD [key]
  | .TimeOffset offset .Daily =>
    ((parse_daily_key chrono key).map fun x =>
      [(Period.nth .Daily ((date x).day_number + offset)).key]).getD [key]
  | .TimeOffset offset .Hourly =>
    ((parse_hourly_key chrono key).map fun time =>
      [(Period.nth .Hourly (counted_hour hour leap_hour time offset)).key]).getD [key]
  | _ => [key]

/-- All days and hours to be written are representable. -/
def StaysInCalendar (mapping : PartitionMapping) (key : String) : Prop :=
  match mapping with
  | .TimeAggregation _ .Daily .Weekly =>
    ∀ monday ∈ parse_weekly_key chrono key, (date monday).day_number + 6 ≤ last_day
  | .TimeAggregation _ .Daily .Monthly =>
    ∀ month ∈ parse_monthly_key key, -262143 ≤ month.1 ∧ month.1 ≤ 262142
  | .TimeWindow size .Daily =>
    ∀ x ∈ parse_daily_key chrono key, first_day ≤ (date x).day_number - (size - 1 : Nat)
  | .TimeWindow size .Hourly =>
    ∀ time ∈ parse_hourly_key chrono key, 24 * first_day ≤ leap_hour time - (size - 1 : Nat)
  | .TimeOffset offset .Daily =>
    ∀ x ∈ parse_daily_key chrono key, representable ((date x).day_number + offset)
  | .TimeOffset offset .Hourly =>
    ∀ time ∈ parse_hourly_key chrono key,
      representable (counted_hour hour leap_hour time offset / 24)
  | _ => True

/-! ### Periods by their numbers -/

theorem nth_daily (n : Int) : Period.nth .Daily n = .day (day_of_number n) :=
  (Period.eq_nth (p := .day _) rfl (day_number_day_of_number n)).symm

theorem nth_hourly (n : Int) :
    Period.nth .Hourly n = .hour (day_of_number (n / 24)) (n % 24).toNat (by omega) := by
  refine (Period.eq_nth (p := .hour _ _ _) rfl ?_).symm
  show 24 * (day_of_number (n / 24)).day_number + ((n % 24).toNat : Int) = n
  rw [day_number_day_of_number]
  omega

theorem day_of_number_eq (d : Date) : day_of_number d.day_number = d :=
  Date.day_number_inj (day_number_day_of_number _)

/-- A month that is read is one of the twelve. -/
theorem parse_monthly_key_bounds {key : String} {month : Int × Nat}
    (h : parse_monthly_key key = some month) : 1 ≤ month.2 ∧ month.2 ≤ 12 := by
  unfold parse_monthly_key at h
  split at h
  · split at h
    · obtain ⟨hbounds, heq⟩ := Option.ite_none_right_eq_some.mp h
      cases heq
      exact hbounds
    · cases h
  · cases h

/-! ### When a mapping panics -/

variable {chrono date hour leap_hour} {mapping : PartitionMapping} {key : String}

namespace Chrono.Exact

variable (doc : chrono.Exact date hour leap_hour)
include doc

/-- The key of the day that is so many days later. -/
theorem day_key_after (x : NaiveDate) (n : Int) :
    (chrono.add_days x n).map (fun date => chrono.format_date date "%Y-%m-%d") =
      if representable ((date x).day_number + n) then
        some (Period.nth .Daily ((date x).day_number + n)).key
      else none := by
  by_cases h : representable ((date x).day_number + n)
  · obtain ⟨x', hx'⟩ := doc.exists_day h
    rw [if_pos h, (doc.add_days x n x').mpr hx', Option.map_some, doc.format_date, ← hx', nth_daily,
      day_of_number_eq]
    rfl
  · have hnone : chrono.add_days x n = none := by
      rw [← Option.not_isSome_iff_eq_none, doc.add_days_isSome]
      exact h
    rw [if_neg h, hnone]
    rfl

/-- The key of the hour that is so many hours later. -/
theorem hour_key_after (time : NaiveDateTime) (n : Int) :
    (chrono.add_hours time n).map (fun time => chrono.format_date_time time "%Y-%m-%d %H:00:00") =
      if representable (counted_hour hour leap_hour time n / 24) then
        some (Period.nth .Hourly (counted_hour hour leap_hour time n)).key
      else none := by
  by_cases h : representable (counted_hour hour leap_hour time n / 24)
  · obtain ⟨time', htime'⟩ := Option.isSome_iff_exists.mp ((doc.add_hours_isSome time n).mpr h)
    have hhour := doc.add_hours time n time' htime'
    rw [if_pos h, htime', Option.map_some, nth_hourly, ← hhour]
    refine congrArg some (doc.format_hour time' _ _ (by omega) ?_)
    rw [day_number_day_of_number]
    omega
  · have hnone : chrono.add_hours time n = none := by
      rw [← Option.not_isSome_iff_eq_none, doc.add_hours_isSome]
      exact h
    rw [if_neg h, hnone]
    rfl

theorem daily_keys_eq (x : NaiveDate) (count : Nat) :
    Servo.daily_keys chrono x count =
      if ∀ i ∈ List.range count, representable ((date x).day_number + (i : Nat)) then
        some (days_from (date x).day_number count)
      else none := by
  unfold Servo.daily_keys
  simp only [doc.day_key_after]
  exact Fallible.mapM_ite

/-- Of consecutive days the last one counts. -/
theorem daily_keys_eq_some_iff {x : NaiveDate} {count : Nat} (hcount : 0 < count)
    {keys : List String} : Servo.daily_keys chrono x count = some keys ↔
      (date x).day_number + (count - 1 : Nat) ≤ last_day ∧
        keys = days_from (date x).day_number count := by
  have hx := doc.date_representable x
  have hall : (∀ i ∈ List.range count, representable ((date x).day_number + (i : Nat))) ↔
      (date x).day_number + (count - 1 : Nat) ≤ last_day := by
    constructor
    · intro h
      exact (h (count - 1) (List.mem_range.mpr (by omega))).2
    · intro h i hi
      have hlt := List.mem_range.mp hi
      exact ⟨by have := hx.1; omega, by omega⟩
  rw [doc.daily_keys_eq, Option.ite_none_right_eq_some, hall, Option.some.injEq]
  exact and_congr_right fun _ => eq_comm

/-- The days of a month are all in its year. -/
theorem monthly_keys_eq_some_iff {m : Month} {keys : List String} :
    ((chrono.from_ymd_opt m.year m.month 1).bind fun start =>
        Servo.daily_keys chrono start (Servo.days_in_month m.year m.month)) = some keys ↔
      (-262143 ≤ m.year ∧ m.year ≤ 262142) ∧
        keys = days_from (month_start m.index) (Servo.days_in_month m.year m.month) := by
  have hdays := days_in_month_pos m.year m.month
  let first : Date := ⟨m, 1, le_refl 1, by omega⟩
  let last : Date := ⟨m, Calendar.days_in_month m.year m.month, by omega, le_refl _⟩
  have hfirst : first.day_number = month_start m.index := Int.add_zero _
  have hlast : last.day_number =
      month_start m.index + (Calendar.days_in_month m.year m.month - 1 : Nat) := rfl
  have hyear : representable last.day_number ↔ -262143 ≤ m.year ∧ m.year ≤ 262142 :=
    representable_iff_year
  rw [Option.bind_eq_some_iff, days_in_month_eq]
  constructor
  · intro ⟨x, hx, hkeys⟩
    obtain ⟨hyear', hmonth', hday'⟩ := (doc.from_ymd_opt _ _ _ x).mp hx
    have hdate : date x = first := Date.ext hyear' hmonth' hday'
    obtain ⟨-, rfl⟩ := (doc.daily_keys_eq_some_iff (by omega)).mp hkeys
    have hx' := doc.date_representable x
    rw [hdate] at hx' ⊢
    exact ⟨representable_iff_year.mp hx', by rw [hfirst]⟩
  · rintro ⟨hrange, rfl⟩
    obtain ⟨x, hx⟩ := doc.exists_date first (representable_iff_year.mpr hrange)
    refine ⟨x, (doc.from_ymd_opt _ _ _ x).mpr (by rw [hx]; exact ⟨rfl, rfl, rfl⟩), ?_⟩
    have hle := (hyear.mpr hrange).2
    rw [doc.daily_keys_eq_some_iff (by omega), hx, hfirst]
    exact ⟨by omega, rfl⟩

/-- Of a window the farthest day counts. -/
theorem daily_window_eq_some_iff {x : NaiveDate} {size : Nat} {keys : List String} :
    ((List.range size).mapM fun (i : Nat) => (chrono.add_days x (-(i : Int))).map fun date =>
        chrono.format_date date "%Y-%m-%d") = some keys ↔
      first_day ≤ (date x).day_number - (size - 1 : Nat) ∧
        keys = (List.range size).map fun (i : Nat) =>
          (Period.nth .Daily ((date x).day_number + -(i : Int))).key := by
  have hx := doc.date_representable x
  have hall : (∀ i ∈ List.range size, representable ((date x).day_number + -((i : Nat) : Int))) ↔
      first_day ≤ (date x).day_number - (size - 1 : Nat) := by
    constructor
    · intro h
      by_cases hsize : size = 0
      · subst hsize
        have := hx.1
        omega
      · have := (h (size - 1) (List.mem_range.mpr (by omega))).1
        omega
    · intro h i hi
      have hlt := List.mem_range.mp hi
      exact ⟨by omega, by have := hx.2; omega⟩
  simp only [doc.day_key_after]
  rw [Fallible.mapM_ite, Option.ite_none_right_eq_some, hall, Option.some.injEq]
  exact and_congr_right fun _ => eq_comm

/-- Of a window the farthest hour counts. -/
theorem hourly_window_eq_some_iff {time : NaiveDateTime} {size : Nat} {keys : List String} :
    ((List.range size).mapM fun (i : Nat) => (chrono.add_hours time (-(i : Int))).map fun time =>
        chrono.format_date_time time "%Y-%m-%d %H:00:00") = some keys ↔
      24 * first_day ≤ leap_hour time - (size - 1 : Nat) ∧
        keys = (List.range size).map fun (i : Nat) =>
          (Period.nth .Hourly (counted_hour hour leap_hour time (-(i : Int)))).key := by
  have htime := doc.hour_representable time
  have hleap := doc.leap_hour_le time
  unfold representable at htime
  have hall : (∀ i ∈ List.range size,
      representable (counted_hour hour leap_hour time (-((i : Nat) : Int)) / 24)) ↔
      24 * first_day ≤ leap_hour time - (size - 1 : Nat) := by
    unfold counted_hour representable
    constructor
    · intro h
      by_cases hsize : size ≤ 1
      · omega
      · have hlast := h (size - 1) (List.mem_range.mpr (by omega))
        rw [if_pos (by omega)] at hlast
        omega
    · intro h i hi
      have hlt := List.mem_range.mp hi
      split <;> omega
  simp only [doc.hour_key_after]
  rw [Fallible.mapM_ite, Option.ite_none_right_eq_some, hall, Option.some.injEq]
  exact and_congr_right fun _ => eq_comm

theorem daily_offset_eq_some_iff {x : NaiveDate} {offset : Int} {keys : List String} :
    ((chrono.add_days x offset).map fun date => [chrono.format_date date "%Y-%m-%d"]) = some keys ↔
      representable ((date x).day_number + offset) ∧
        keys = [(Period.nth .Daily ((date x).day_number + offset)).key] := by
  have hkey := congrArg (Option.map fun key => [key]) (doc.day_key_after x offset)
  rw [Option.map_map] at hkey
  refine (Eq.congr_left hkey).trans ?_
  by_cases h : representable ((date x).day_number + offset)
  · rw [if_pos h, Option.map_some, Option.some.injEq, and_iff_right h]
    exact eq_comm
  · rw [if_neg h]
    exact iff_of_false nofun fun hkeys => h hkeys.1

theorem hourly_offset_eq_some_iff {time : NaiveDateTime} {offset : Int} {keys : List String} :
    ((chrono.add_hours time offset).map fun time =>
        [chrono.format_date_time time "%Y-%m-%d %H:00:00"]) = some keys ↔
      representable (counted_hour hour leap_hour time offset / 24) ∧
        keys = [(Period.nth .Hourly (counted_hour hour leap_hour time offset)).key] := by
  have hkey := congrArg (Option.map fun key => [key]) (doc.hour_key_after time offset)
  rw [Option.map_map] at hkey
  refine (Eq.congr_left hkey).trans ?_
  by_cases h : representable (counted_hour hour leap_hour time offset / 24)
  · rw [if_pos h, Option.map_some, Option.some.injEq, and_iff_right h]
    exact eq_comm
  · rw [if_neg h]
    exact iff_of_false nofun fun hkeys => h hkeys.1

/-- **What a mapping returns**, and when it does not panic. -/
theorem map_partition_eq_some_iff {keys : List String} :
    mapping.map_partition chrono key = some keys ↔
      StaysInCalendar chrono date hour leap_hour mapping key ∧
        keys = mapped_keys chrono date hour leap_hour mapping key := by
  -- a key that cannot be read, and a mapping that is not implemented
  have hidentity : some [key] = some keys ↔ True ∧ keys = [key] := by
    rw [Option.some.injEq, true_and, eq_comm]
  cases mapping with
  | Identity => exact hidentity
  | Custom expression => exact hidentity
  | TimeAggregation factor up down =>
    cases up <;> cases down <;> try exact hidentity
    case Hourly.Daily =>
      simp only [PartitionMapping.map_partition, map_time_aggregation, StaysInCalendar, mapped_keys]
      cases hkey : Servo.parse_daily_key chrono key with
      | none => exact hidentity
      | some x =>
        simp only [doc.format_date, Option.some.injEq, true_and, Option.map_some,
          Option.getD_some]
        exact eq_comm
    case Daily.Weekly =>
      simp only [PartitionMapping.map_partition, map_time_aggregation, StaysInCalendar, mapped_keys]
      cases hkey : parse_weekly_key chrono key with
      | none => simpa using hidentity
      | some monday => simpa using doc.daily_keys_eq_some_iff (x := monday) (show 0 < 7 by decide)
    case Daily.Monthly =>
      simp only [PartitionMapping.map_partition, map_time_aggregation, StaysInCalendar, mapped_keys]
      cases hkey : parse_monthly_key key with
      | none => simpa using hidentity
      | some month =>
        have hmonth := parse_monthly_key_bounds hkey
        have hkeys := @monthly_keys_eq_some_iff _ _ _ _ _ _ doc
          ⟨month.1, month.2, hmonth.1, hmonth.2⟩ keys
        simpa [Month.index] using hkeys
    case Monthly.Yearly =>
      simp only [PartitionMapping.map_partition, map_time_aggregation, StaysInCalendar, mapped_keys]
      cases hkey : parse_i32 key with
      | none => exact hidentity
      | some year =>
        simp only [Option.some.injEq, true_and, Option.map_some, Option.getD_some]
        exact eq_comm
  | TimeWindow size granularity =>
    cases granularity <;> try exact hidentity
    case Hourly =>
      simp only [PartitionMapping.map_partition, map_time_window, StaysInCalendar, mapped_keys]
      cases hkey : parse_hourly_key chrono key with
      | none => simpa using hidentity
      | some time => simpa using doc.hourly_window_eq_some_iff
    case Daily =>
      simp only [PartitionMapping.map_partition, map_time_window, StaysInCalendar, mapped_keys]
      cases hkey : Servo.parse_daily_key chrono key with
      | none => simpa using hidentity
      | some x => simpa using doc.daily_window_eq_some_iff
  | TimeOffset offset granularity =>
    cases granularity <;> try exact hidentity
    case Hourly =>
      simp only [PartitionMapping.map_partition, map_time_offset, StaysInCalendar, mapped_keys]
      cases hkey : parse_hourly_key chrono key with
      | none => simpa using hidentity
      | some time => simpa using doc.hourly_offset_eq_some_iff
    case Daily =>
      simp only [PartitionMapping.map_partition, map_time_offset, StaysInCalendar, mapped_keys]
      cases hkey : Servo.parse_daily_key chrono key with
      | none => simpa using hidentity
      | some x => simpa using doc.daily_offset_eq_some_iff

end Chrono.Exact

/-- **A mapping panics** if and only if a day or an hour is not representable. -/
theorem map_partition_isSome_iff (doc : chrono.Exact date hour leap_hour)
    (mapping : PartitionMapping) (key : String) :
    (mapping.map_partition chrono key).isSome ↔
      StaysInCalendar chrono date hour leap_hour mapping key := by
  rw [Option.isSome_iff_exists]
  simp only [doc.map_partition_eq_some_iff, exists_and_left, exists_eq, and_true]

/-- February 2024 is mapped to its days. -/
theorem february_is_mapped : (PartitionMapping.map_partition bounded_chrono
    (.TimeAggregation 30 .Daily .Monthly) "2024-02").isSome := by
  refine (map_partition_isSome_iff bounded_exact _ _).mpr ?_
  show ∀ month ∈ parse_monthly_key "2024-02", _
  rw [show parse_monthly_key "2024-02" = some (2024, 2) by decide +kernel]
  rintro month ⟨⟩
  decide

/-- The year 999999 is read, and its months cannot be written. -/
theorem distant_month_panics :
    ¬ ∀ (NaiveDate NaiveDateTime : Type) (chrono : Chrono NaiveDate NaiveDateTime)
      (date : NaiveDate → Date) (hour leap_hour : NaiveDateTime → Int),
      chrono.Exact date hour leap_hour →
      ∀ (mapping : PartitionMapping) (key : String), (mapping.map_partition chrono key).isSome := by
  intro hall
  have hsome := hall _ _ _ _ _ _ bounded_exact (.TimeAggregation 30 .Daily .Monthly) "999999-01"
  have hkey : parse_monthly_key "999999-01" = some (999999, 1) := by decide +kernel
  have hdate : bounded_chrono.from_ymd_opt 999999 1 1 = none := by
    show ymd_opt 999999 1 1 = none
    unfold ymd_opt
    exact dif_neg (by decide)
  simp only [PartitionMapping.map_partition, map_time_aggregation, hkey, hdate] at hsome
  cases hsome

end Servo
