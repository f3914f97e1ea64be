import Servo.Core.PartitionValidator
import Servo.Core.PeriodMapping
import Servo.Python.Partitions

/-! # Key Formats of the SDK and of the Core

    The SDK names partitions with the formats of `servo.partitions`, the core
    reads them with those of its validator, and writes them with those of its
    mapping. Days are the same text in all three. Weeks are accepted, because
    the validator also takes the date of a week. Hours and months have formats
    of their own in the SDK, which the core does not take.
-/

namespace Servo

open Calendar

namespace Python

/-- The granularity of the core. -/
def PartitionGranularity.time_granularity : PartitionGranularity → TimeGranularity
  | .HOURLY => .Hourly
  | .DAILY => .Daily
  | .WEEKLY => .Weekly
  | .MONTHLY => .Monthly

/-! ### The default formats -/

theorem Date.year_text_eq (d : Date) : year_text d.year = Text.pad 4 d.year.toNat :=
  year_text_of_digits (le_trans (by decide) d.min_year) d.max_year

theorem strftime_date (t : Datetime) : t.strftime "%Y-%m-%d" = date_key t.date.toDate := by
  rw [date_key, Date.year_text_eq]
  simp [Datetime.strftime, Datetime.strftime_chars, String.append_assoc]

theorem strftime_hour (t : Datetime) :
    t.strftime "%Y-%m-%dT%H" =
      date_key t.date.toDate ++ "T" ++ Text.pad 2 (t.time / 3600000000) := by
  rw [date_key, Date.year_text_eq]
  simp [Datetime.strftime, Datetime.strftime_chars, String.append_assoc]

theorem strftime_month (t : Datetime) :
    t.strftime "%Y-%m-01" =
      Text.pad 4 t.date.year.toNat ++ "-" ++ (Text.pad 2 t.date.month ++ "-" ++ Text.pad 2 1) := by
  have hfirst : Text.pad 2 1 = "01" := by decide
  rw [hfirst]
  simp [Datetime.strftime, Datetime.strftime_chars, String.append_assoc]

/-! ### What the core makes of the keys -/

variable {NaiveDate NaiveDateTime : Type} {chrono : Chrono NaiveDate NaiveDateTime}
  {date : NaiveDate → Calendar.Date}

theorem Date.is_daily_key (doc : chrono.Documented date) (d : Date) :
    is_time_key chrono (date_key d.toDate) .Daily = true := by
  have hmin := d.min_year
  have hmax := d.max_year
  obtain ⟨x, -, hx⟩ := doc.parse_daily_key (d := d.toDate) ⟨by omega, by omega⟩
  rw [← hx]
  exact Servo.is_daily_key doc x

/-- The date of any day of a week is taken for the week. -/
theorem Date.is_weekly_key (doc : chrono.Documented date) (d : Date) :
    is_time_key chrono (date_key d.toDate) .Weekly = true := by
  have hday : (chrono.parse_date (date_key d.toDate) "%Y-%m-%d").isSome = true :=
    d.is_daily_key doc
  simp only [is_time_key, hday, Bool.or_true]

/-- An hour of the SDK has no colon. -/
theorem colon_notMem_strftime_hour (t : Datetime) :
    ':' ∉ (t.strftime "%Y-%m-%dT%H").toList := by
  have hpad : ∀ width n, ':' ∉ (Text.pad width n).toList := by
    intro width n hmem
    cases Text.mem_pad hmem
  rw [strftime_hour, date_key, Date.year_text_eq]
  simp [String.toList_append, hpad]

namespace TimePartitionDefinition

/-- All days of the period are in the range. -/
def Covers (self : TimePartitionDefinition) (today : Date) (start stop : Option Datetime)
    (p : Period) : Prop :=
  ∀ n, first_part .Daily p.granularity p.index ≤ n →
    n < first_part .Daily p.granularity (p.index + 1) →
      ∃ d : Date, d.day_number = n ∧ self.InRange today start stop d.midnight

/-- What holds of the keys of a definition with the default format of its granularity. -/
structure KeyFormats (chrono : Chrono NaiveDate NaiveDateTime) (g : PartitionGranularity)
    (self : TimePartitionDefinition) (today : Date) (start stop : Option Datetime)
    (keys : List String) : Prop where
  /-- Days and weeks are accepted. -/
  accepted : g = .DAILY ∨ g = .WEEKLY →
    ∀ key ∈ keys, validate_time_key chrono key g.time_granularity = .ok ()
  /-- Hours and months are not. -/
  rejected : g = .HOURLY ∨ g = .MONTHLY →
    ∀ key ∈ keys, validate_time_key chrono key g.time_granularity =
      .error (.InvalidKeyFormat key (.Time g.time_granularity))
  /-- The days to which a period in the range is mapped are among the keys. -/
  days_mapped : g = .DAILY → ∀ (p : Period) (factor : Nat) (up_keys : List String),
    infer_mapping (.Time .Daily) (.Time p.granularity) =
      .ok (.TimeAggregation factor .Daily p.granularity) →
    0 ≤ p.year_of → p.year_of ≤ 9999 → self.Covers today start stop p →
    map_time_aggregation chrono p.key .Daily p.granularity = some up_keys →
    ∀ key ∈ up_keys, key ∈ keys
  /-- The hours to which a day is mapped never are. -/
  hours_mapped : g = .HOURLY → ∀ (p : Period) (factor : Nat) (up_keys : List String),
    infer_mapping (.Time .Hourly) (.Time p.granularity) =
      .ok (.TimeAggregation factor .Hourly p.granularity) →
    0 ≤ p.year_of → p.year_of ≤ 9999 →
    map_time_aggregation chrono p.key .Hourly p.granularity = some up_keys →
    ∀ key ∈ up_keys, key ∉ keys

end TimePartitionDefinition

/-- The keys that an inferred mapping gives for a period. -/
theorem map_time_aggregation_eq (doc : chrono.Documented date) {up : TimeGranularity} {p : Period}
    {factor : Nat} {up_keys : List String}
    (hmap : infer_mapping (.Time up) (.Time p.granularity) =
      .ok (.TimeAggregation factor up p.granularity))
    (hup : up ≠ .Monthly) (h : 0 ≤ p.year_of) (h' : p.year_of ≤ 9999)
    (hkeys : map_time_aggregation chrono p.key up p.granularity = some up_keys) :
    up_keys = part_keys up p.granularity p.index := by
  have hmapping := map_partition_key doc hmap rfl h h' fun hmonthly => absurd hmonthly hup
  exact Option.some.inj (hkeys.symm.trans hmapping)

variable {start_date today : Date} {end_date : Option Date} {start stop : Option Datetime}
  {keys : List String}

theorem days_accepted (doc : chrono.Documented date)
    (hkeys : (DailyPartition start_date end_date).get_partition_keys today start stop =
      some keys) : ∀ key ∈ keys, validate_time_key chrono key .Daily = .ok () := by
  intro key hkey
  obtain ⟨t, -, -, rfl⟩ := (TimePartitionDefinition.mem_get_partition_keys hkeys).mp hkey
  rw [validate_time_key_eq_ok_iff, show (DailyPartition start_date end_date).fmt = "%Y-%m-%d" from
    rfl, strftime_date]
  exact t.date.is_daily_key doc

theorem weeks_accepted (doc : chrono.Documented date)
    (hkeys : (WeeklyPartition start_date end_date).get_partition_keys today start stop =
      some keys) : ∀ key ∈ keys, validate_time_key chrono key .Weekly = .ok () := by
  intro key hkey
  obtain ⟨t, -, -, rfl⟩ := (TimePartitionDefinition.mem_get_partition_keys hkeys).mp hkey
  rw [validate_time_key_eq_ok_iff, show (WeeklyPartition start_date end_date).fmt = "%Y-%m-%d" from
    rfl, strftime_date]
  exact t.date.is_weekly_key doc

theorem hours_rejected (doc : chrono.Documented date)
    (hkeys : (HourlyPartition start_date end_date).get_partition_keys today start stop =
      some keys) :
    ∀ key ∈ keys, validate_time_key chrono key .Hourly =
      .error (.InvalidKeyFormat key (.Time .Hourly)) := by
  intro key hkey
  obtain ⟨t, -, -, rfl⟩ := (TimePartitionDefinition.mem_get_partition_keys hkeys).mp hkey
  have hinvalid := not_hourly_key doc (colon_notMem_strftime_hour t)
  rw [show (HourlyPartition start_date end_date).fmt = "%Y-%m-%dT%H" from rfl, validate_time_key,
    hinvalid]
  rfl

theorem months_rejected
    (hkeys : (MonthlyPartition start_date end_date).get_partition_keys today start stop =
      some keys) :
    ∀ key ∈ keys, validate_time_key chrono key .Monthly =
      .error (.InvalidKeyFormat key (.Time .Monthly)) := by
  intro key hkey
  obtain ⟨t, -, -, rfl⟩ := (TimePartitionDefinition.mem_get_partition_keys hkeys).mp hkey
  rw [show (MonthlyPartition start_date end_date).fmt = "%Y-%m-01" from rfl, validate_time_key,
    strftime_month, not_monthly_key]
  rfl

/-- The days of a period in the range have their keys. -/
theorem mapped_days_generated (doc : chrono.Documented date)
    (hkeys : (DailyPartition start_date end_date).get_partition_keys today start stop = some keys)
    {p : Period} {factor : Nat} {up_keys : List String}
    (hmap : infer_mapping (.Time .Daily) (.Time p.granularity) =
      .ok (.TimeAggregation factor .Daily p.granularity))
    (h : 0 ≤ p.year_of) (h' : p.year_of ≤ 9999)
    (hcovers : (DailyPartition start_date end_date).Covers today start stop p)
    (hup : map_time_aggregation chrono p.key .Daily p.granularity = some up_keys) :
    ∀ key ∈ up_keys, key ∈ keys := by
  intro key hkey
  rw [map_time_aggregation_eq doc hmap (by decide) h h' hup] at hkey
  obtain ⟨q, hq, hlow, hhigh, rfl⟩ := mem_part_keys.mp hkey
  cases q with
  | day d =>
    obtain ⟨d', hd', hrange⟩ := hcovers _ hlow hhigh
    have hsame : d'.toDate = d := Calendar.Date.day_number_inj hd'
    refine (TimePartitionDefinition.mem_get_partition_keys hkeys).mpr
      ⟨d'.midnight, hrange, rfl, ?_⟩
    rw [show (DailyPartition start_date end_date).fmt = "%Y-%m-%d" from rfl, strftime_date]
    exact congrArg date_key hsame
  | _ => cases hq

/-- The hours of the mapping have colons. -/
theorem mapped_hours_not_generated (doc : chrono.Documented date)
    (hkeys : (HourlyPartition start_date end_date).get_partition_keys today start stop = some keys)
    {p : Period} {factor : Nat} {up_keys : List String}
    (hmap : infer_mapping (.Time .Hourly) (.Time p.granularity) =
      .ok (.TimeAggregation factor .Hourly p.granularity))
    (h : 0 ≤ p.year_of) (h' : p.year_of ≤ 9999)
    (hup : map_time_aggregation chrono p.key .Hourly p.granularity = some up_keys) :
    ∀ key ∈ up_keys, key ∉ keys := by
  intro key hkey hgenerated
  rw [map_time_aggregation_eq doc hmap (by decide) h h' hup] at hkey
  obtain ⟨q, hq, -, -, rfl⟩ := mem_part_keys.mp hkey
  obtain ⟨t, -, -, ht⟩ := (TimePartitionDefinition.mem_get_partition_keys hkeys).mp hgenerated
  cases q with
  | hour d hour hour_lt =>
    have hcolon := colon_notMem_strftime_hour t
    rw [show t.strftime "%Y-%m-%dT%H" = (Period.hour d hour hour_lt).key from ht] at hcolon
    exact hcolon (by simp [Period.key, hour_key, String.toList_append])
  | _ => cases hq

open TimePartitionDefinition in
/-- **The key formats**: days and weeks of the SDK are keys of the core, and the days of the
    mapping are keys of the SDK; for hours and months there is no agreement. -/
theorem key_formats (doc : chrono.Documented date) (g : PartitionGranularity)
    (start_date today : Date) (end_date : Option Date) (start stop : Option Datetime) :
    (((g.definition start_date end_date).get_end_date today).year ≤ 9998 →
      ((g.definition start_date end_date).get_partition_keys today start stop).isSome) ∧
    ∀ keys, (g.definition start_date end_date).get_partition_keys today start stop = some keys →
      KeyFormats chrono g (g.definition start_date end_date) today start stop keys := by
  refine ⟨get_partition_keys_isSome, fun keys hkeys => ⟨?_, ?_, ?_, ?_⟩⟩
  · rintro (rfl | rfl)
    · exact days_accepted doc hkeys
    · exact weeks_accepted doc hkeys
  · rintro (rfl | rfl)
    · exact hours_rejected doc hkeys
    · exact months_rejected hkeys
  · rintro rfl p factor up_keys hmap h h' hcovers hup
    exact mapped_days_generated doc hkeys hmap h h' hcovers hup
  · rintro rfl p factor up_keys hmap h h' hup
    exact mapped_hours_not_generated doc hkeys hmap h h' hup

theorem january_pos : 1 ≤ 1 := by decide

theorem january_le : 1 ≤ 12 := by decide

theorem first_le : 1 ≤ days_in_month 2024 1 := by decide

theorem third_pos : 1 ≤ 3 := by decide

theorem third_le : 3 ≤ days_in_month 2024 1 := by decide

theorem year_2024_pos : (1 : Int) ≤ 2024 := by decide

theorem year_2024_le : (2024 : Int) ≤ 9999 := by decide

/-- Two days of January 2024. -/
def january_first : Date :=
  ⟨⟨⟨2024, 1, january_pos, january_le⟩, 1, january_pos, first_le⟩, year_2024_pos, year_2024_le⟩

def january_third : Date :=
  ⟨⟨⟨2024, 1, january_pos, january_le⟩, 3, third_pos, third_le⟩, year_2024_pos, year_2024_le⟩

theorem january_key_formats :
    TimePartitionDefinition.KeyFormats calendar_chrono .DAILY
      (DailyPartition january_first (some january_third)) january_third none none
      ["2024-01-01", "2024-01-02", "2024-01-03"] :=
  (key_formats calendar_documented .DAILY january_first january_third (some january_third) none
    none).2 _ (by decide +kernel)

/-- The key of January 2024 is "2024-01-01", which is not the key of a month. -/
theorem january_is_rejected :
    ¬ ∀ (g : PartitionGranularity) (start_date today : Date) (end_date : Option Date)
      (start stop : Option Datetime) (keys : List String),
      (g.definition start_date end_date).get_partition_keys today start stop = some keys →
      ∀ key ∈ keys, validate_time_key calendar_chrono key g.time_granularity = .ok () := by
  intro hall
  have hkeys : (PartitionGranularity.MONTHLY.definition january_first
      (some january_third)).get_partition_keys january_third none none = some ["2024-01-01"] := by
    decide +kernel
  have haccepted := hall .MONTHLY january_first january_third (some january_third) none none _
    hkeys _ List.mem_cons_self
  have hrejected : validate_time_key calendar_chrono "2024-01-01" .Monthly = _ :=
    months_rejected hkeys _ List.mem_cons_self
  cases hrejected.symm.trans haccepted

end Python

end Servo
