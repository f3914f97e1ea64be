import Servo.Core.Partition
import Servo.Framework.Text
import Mathlib.Data.List.Infix

/-! # Partition Mapping

    `servo_core::partition_mapping`: which partitions of an upstream asset a
    partition of a downstream asset needs. The mapping is inferred from how the
    two assets are partitioned, and works on the keys, which are texts.

    Dates are those of `chrono`, whose functions are a parameter. A function
    that panics has the result `none`.
-/

namespace Servo

/-! ### Dates -/

/-- What is used of `chrono`. -/
structure Chrono (NaiveDate NaiveDateTime : Type) where
  /-- `NaiveDate::from_ymd_opt`. -/
  from_ymd_opt (year : Int) (month day : Nat) : Option NaiveDate
  /-- `NaiveDate::from_isoywd_opt(year, week, Weekday::Mon)`. -/
  from_isoywd_opt (year : Int) (week : Nat) : Option NaiveDate
  /-- `NaiveDate::parse_from_str`. -/
  parse_date (text format : String) : Option NaiveDate
  /-- `NaiveDateTime::parse_from_str`. -/
  parse_date_time (text format : String) : Option NaiveDateTime
  /-- `date + Duration::days(days)`, which panics when the date is out of range. -/
  add_days (date : NaiveDate) (days : Int) : Option NaiveDate
  /-- `time + Duration::hours(hours)`, which panics when the date is out of range. -/
  add_hours (time : NaiveDateTime) (hours : Int) : Option NaiveDateTime
  /-- `date.format(format).to_string()`. -/
  format_date (date : NaiveDate) (format : String) : String
  /-- `time.format(format).to_string()`. -/
  format_date_time (time : NaiveDateTime) (format : String) : String

/-! ### Mappings -/

/-- `PartitionMappingError`, as far as inference produces it. The types stand for their
    `{:?}` texts. -/
inductive PartitionMappingError where
  | IncompatibleTypes (upstream downstream : PartitionType)
  deriving DecidableEq

/-- `PartitionMapping`. -/
inductive PartitionMapping where
  | Identity
  | TimeAggregation (factor : Nat) (upstream_granularity downstream_granularity : TimeGranularity)
  | TimeWindow (window_size : Nat) (granularity : TimeGranularity)
  | TimeOffset (offset : Int) (granularity : TimeGranularity)
  | Custom (expression : String)
  deriving DecidableEq

/-- `infer_mapping`. -/
def infer_mapping (upstream downstream : PartitionType) :
    Except PartitionMappingError PartitionMapping :=
  match upstream, downstream with
  | .Time .Daily, .Time .Weekly => .ok (.TimeAggregation 7 .Daily .Weekly)
  -- 30 is approximate
  | .Time .Daily, .Time .Monthly => .ok (.TimeAggregation 30 .Daily .Monthly)
  | .Time .Hourly, .Time .Daily => .ok (.TimeAggregation 24 .Hourly .Daily)
  | .Time .Monthly, .Time .Yearly => .ok (.TimeAggregation 12 .Monthly .Yearly)
  | .Time up, .Time down =>
    -- Same granularity = identity mapping
    if up = down then .ok .Identity else .error (.IncompatibleTypes upstream downstream)
  -- Custom and Range types default to identity
  | .Custom _, .Custom _ | .Range _ _, .Range _ _ => .ok .Identity
  | _, _ => .error (.IncompatibleTypes upstream downstream)

/-! ### Reading keys -/

section
variable {NaiveDate NaiveDateTime : Type} (chrono : Chrono NaiveDate NaiveDateTime)

/-- `text.parse::<i32>().ok()`. -/
def parse_i32 (text : String) : Option Int := Text.parse_signed (2 ^ 31) text

/-- `text.parse::<u32>().ok()`. -/
def parse_u32 (text : String) : Option Nat := Text.parse_unsigned (2 ^ 32) text

/-- `text.split(pattern)`. -/
def split (text pattern : String) : List String :=
  (Text.split pattern.toList text.toList).map String.ofList

def parse_daily_key (key : String) : Option NaiveDate := chrono.parse_date key "%Y-%m-%d"

def parse_hourly_key (key : String) : Option NaiveDateTime :=
  (chrono.parse_date_time key "%Y-%m-%d %H:%M:%S").or
    ((chrono.parse_date_time key "%Y-%m-%d %H:00:00").or
      (chrono.parse_date_time key "%Y-%m-%dT%H:%M:%S"))

/-- Year and week of an ISO week format, if the numbers can be read. -/
def parse_iso_week (key : String) : Option (Int × Nat) :=
  if "-W".toList <:+: key.toList then
    match split key "-W" with
    | [year, week] =>
      match parse_i32 year, parse_u32 week with
      | some year, some week => some (year, week)
      | _, _ => none
    | _ => none
  else none

def parse_weekly_key (key : String) : Option NaiveDate :=
  match parse_iso_week key with
  | some (year, week) => chrono.from_isoywd_opt year week
  -- Try date format (assume it's the Monday of the week)
  | none => parse_daily_key chrono key

def parse_monthly_key (key : String) : Option (Int × Nat) :=
  match split key "-" with
  | year :: month :: _ =>
    match parse_i32 year, parse_u32 month with
    | some year, some month => if 1 ≤ month ∧ month ≤ 12 then some (year, month) else none
    | _, _ => none
  | _ => none

def is_leap_year (year : Int) : Bool :=
  (year % 4 = 0 && year % 100 ≠ 0) || year % 400 = 0

def days_in_month (year : Int) (month : Nat) : Nat :=
  match month with
  | 1 | 3 | 5 | 7 | 8 | 10 | 12 => 31
  | 4 | 6 | 9 | 11 => 30
  | 2 => if is_leap_year year then 29 else 28
  | _ => 30

/-! ### Mapping keys -/

/-- The keys of `count` days, from a first one on. -/
def daily_keys (start : NaiveDate) (count : Nat) : Option (List String) :=
  (List.range count).mapM fun (i : Nat) =>
    (chrono.add_days start i).map fun date => chrono.format_date date "%Y-%m-%d"

def map_time_aggregation (downstream_key : String)
    (upstream_granularity downstream_granularity : TimeGranularity) : Option (List String) :=
  match upstream_granularity, downstream_granularity with
  | .Daily, .Weekly =>
    -- Weekly key format: "2024-W03" or "2024-01-15" (Monday of week)
    match parse_weekly_key chrono downstream_key with
    | some monday => daily_keys chrono monday 7
    | none => some [downstream_key]
  | .Daily, .Monthly =>
    match parse_monthly_key downstream_key with
    | some (year, month) =>
      (chrono.from_ymd_opt year month 1).bind fun start =>
        daily_keys chrono start (days_in_month year month)
    | none => some [downstream_key]
  | .Hourly, .Daily =>
    match parse_daily_key chrono downstream_key with
    | some date =>
      some ((List.range 24).map fun h =>
        chrono.format_date date "%Y-%m-%d" ++ " " ++ Text.pad 2 h ++ ":00:00")
    | none => some [downstream_key]
  | .Monthly, .Yearly =>
    match parse_i32 downstream_key with
    | some year =>
      some ((List.range 12).map fun m => toString year ++ "-" ++ Text.pad 2 (m + 1))
    | none => some [downstream_key]
  -- Fallback to identity for unsupported combinations
  | _, _ => some [downstream_key]

def map_time_window (downstream_key : String) (window_size : Nat)
    (granularity : TimeGranularity) : Option (List String) :=
  match granularity with
  | .Daily =>
    match parse_daily_key chrono downstream_key with
    | some date => (List.range window_size).mapM fun (i : Nat) =>
      (chrono.add_days date (-(i : Int))).map fun date => chrono.format_date date "%Y-%m-%d"
    | none => some [downstream_key]
  | .Hourly =>
    match parse_hourly_key chrono downstream_key with
    | some time => (List.range window_size).mapM fun (i : Nat) =>
      (chrono.add_hours time (-(i : Int))).map fun time =>
        chrono.format_date_time time "%Y-%m-%d %H:00:00"
    | none => some [downstream_key]
  | _ => some [downstream_key]

def map_time_offset (downstream_key : String) (offset : Int)
    (granularity : TimeGranularity) : Option (List String) :=
  match granularity with
  | .Daily =>
    match parse_daily_key chrono downstream_key with
    | some date => (chrono.add_days date offset).map fun date =>
      [chrono.format_date date "%Y-%m-%d"]
    | none => some [downstream_key]
  | .Hourly =>
    match parse_hourly_key chrono downstream_key with
    | some time => (chrono.add_hours time offset).map fun time =>
      [chrono.format_date_time time "%Y-%m-%d %H:00:00"]
    | none => some [downstream_key]
  | _ => some [downstream_key]

/-- `PartitionMapping::map_partition`, which is `PartitionMapper::get_upstream_partitions`. -/
def PartitionMapping.map_partition (mapping : PartitionMapping) (downstream_key : String) :
    Option (List String) :=
  match mapping with
  | .Identity => some [downstream_key]
  | .TimeAggregation _ upstream_granularity downstream_granularity =>
    map_time_aggregation chrono downstream_key upstream_granularity downstream_granularity
  | .TimeWindow window_size granularity =>
    map_time_window chrono downstream_key window_size granularity
  | .TimeOffset offset granularity => map_time_offset chrono downstream_key offset granularity
  -- Custom expressions are evaluated externally
  | .Custom _ => some [downstream_key]

end

end Servo
