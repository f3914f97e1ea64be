import Servo.Python.Dates

/-! # Time Partitions in Python

    `servo.partitions`: the keys of an hourly, daily, weekly or monthly
    partition. The keys of a range are made by a loop from the start date to
    the end date, which may be today, and name the dates and times the loop
    comes by.
-/

namespace Servo.Python

/-- `PartitionGranularity`. -/
inductive PartitionGranularity where
  | HOURLY
  | DAILY
  | WEEKLY
  | MONTHLY
  deriving DecidableEq

/-- `TimePartitionDefinition`. The dates are kept as they are parsed: `__post_init__` refuses
    texts that are no dates. -/
structure TimePartitionDefinition where
  start_date : Date
  /-- `none` means unbounded, up to today. -/
  end_date : Option Date
  fmt : String
  granularity : PartitionGranularity

/-! ### Definitions with the default formats -/

def DailyPartition (start_date : Date) (end_date : Option Date) : TimePartitionDefinition :=
  ⟨start_date, end_date, "%Y-%m-%d", .DAILY⟩

def HourlyPartition (start_date : Date) (end_date : Option Date) : TimePartitionDefinition :=
  ⟨start_date, end_date, "%Y-%m-%dT%H", .HOURLY⟩

def WeeklyPartition (start_date : Date) (end_date : Option Date) : TimePartitionDefinition :=
  ⟨start_date, end_date, "%Y-%m-%d", .WEEKLY⟩

def MonthlyPartition (start_date : Date) (end_date : Option Date) : TimePartitionDefinition :=
  ⟨start_date, end_date, "%Y-%m-01", .MONTHLY⟩

/-- The definition of each granularity. -/
def PartitionGranularity.definition : PartitionGranularity → Date → Option Date →
    TimePartitionDefinition
  | .HOURLY => HourlyPartition
  | .DAILY => DailyPartition
  | .WEEKLY => WeeklyPartition
  | .MONTHLY => MonthlyPartition

/-! ### Keys -/

namespace PartitionGranularity

/-- `_get_delta`, in days. -/
def get_delta : PartitionGranularity → Nat
  -- an hour does not make a date another one
  | .HOURLY => 0
  | .DAILY => 1
  | .WEEKLY => 7
  -- handled specially
  | .MONTHLY => 1

/-- `_next_date`. -/
def next_date (self : PartitionGranularity) (current : Date) : Option Date :=
  if self = .MONTHLY then
    -- Move to first of next month
    if current.month = 12 then date (current.year + 1) 1 1
    else date current.year (current.month + 1) 1
  else current.add_days self.get_delta

theorem index_of_next_month {d d' : Date} (h : next_date .MONTHLY d = some d') :
    d'.index = d.index + 1 ∧ d'.day = 1 := by
  have hpos := d.month_pos
  rw [next_date, if_pos rfl] at h
  split at h
  · next hdecember =>
    obtain ⟨hyear, hmonth, hday⟩ := of_date_eq_some h
    refine ⟨?_, hday⟩
    unfold Calendar.Month.index
    omega
  · obtain ⟨hyear, hmonth, hday⟩ := of_date_eq_some h
    refine ⟨?_, hday⟩
    unfold Calendar.Month.index
    omega

/-- There is a next month as long as a later month has dates. -/
theorem next_month_isSome {d x : Date} (h : d.index < x.index) :
    ∃ d', next_date .MONTHLY d = some d' := by
  have hpos := d.month_pos
  have hle := d.month_le
  have hle' := x.month_le
  have hmin := d.min_year
  have hmax := x.max_year
  have hdays := Calendar.days_in_month_pos (d.year + 1) 1
  have hdays' := Calendar.days_in_month_pos d.year (d.month + 1)
  unfold Calendar.Month.index at h
  rw [next_date, if_pos rfl]
  split
  · exact date_isSome _ _ _ ⟨⟨le_refl 1, by decide⟩, ⟨le_refl 1, by omega⟩, by omega, by omega⟩
  · exact date_isSome _ _ _ ⟨⟨by omega, by omega⟩, ⟨le_refl 1, by omega⟩, hmin, by omega⟩

/-- Except for hours, the next date is a later one. -/
theorem day_number_lt_of_next_date {g : PartitionGranularity} (hg : g ≠ .HOURLY) {d d' : Date}
    (h : g.next_date d = some d') : d.day_number < d'.day_number := by
  by_cases hmonthly : g = .MONTHLY
  · subst hmonthly
    obtain ⟨hindex, hday⟩ := index_of_next_month h
    have hlt := d.toDate.lt_month_start
    rw [Date.day_number_of_first hday, hindex]
    exact hlt
  · rw [next_date, if_neg hmonthly] at h
    have hnumber := Date.add_days_eq_some_iff.mp h
    have hdelta : 0 < g.get_delta := by
      cases g with
      | HOURLY => exact absurd rfl hg
      | _ => decide
    omega

/-- The steps of `_iter_dates`. -/
def dates (self : PartitionGranularity) (h : self ≠ .HOURLY) : Stepper Date where
  next := self.next_date
  rank d := d.day_number
  rank_lt := day_number_lt_of_next_date h

end PartitionGranularity

/-- The steps of the loop over hours. -/
def hours : Stepper Datetime where
  next := Datetime.add_hour
  rank t := t.timestamp
  rank_lt h := by
    have hnext := Datetime.add_hour_eq_some_iff.mp h
    omega

theorem hours_next (t : Datetime) : hours.next t = t.add_hour := by
  simp only [hours]

/-- The loop over hours comes by every full hour. -/
theorem reaches_hours {d : Date} {t : Datetime} :
    hours.Reaches d.midnight t ↔ d.day_number ≤ t.date.day_number ∧ 3600000000 ∣ t.time := by
  have hlt := t.time_lt
  have hbetween : ∀ {a x : Datetime}, a.timestamp + 3600000000 ≤ x.timestamp →
      ∃ a' : Datetime, a'.timestamp = a.timestamp + 3600000000 := fun {a x} h =>
    Datetime.exists_timestamp_between a x (by omega) h
  have hnext : ∀ {a a' : Datetime}, hours.next a = some a' ↔
      a'.timestamp = a.timestamp + 3600000000 := by
    intro a a'
    rw [hours_next]
    exact Datetime.add_hour_eq_some_iff
  have hsteps := hours.reaches_iff_of_size (a := d.midnight) (x := t) Datetime.timestamp_inj
    hnext hbetween (by omega)
  have hstart : d.midnight.timestamp = 86400000000 * d.day_number := Int.add_zero _
  rw [hsteps]
  show (∃ k : Nat, t.timestamp = d.midnight.timestamp + k * 3600000000) ↔ _
  rw [hstart]
  unfold Datetime.timestamp
  constructor
  · intro ⟨k, hk⟩
    omega
  · intro ⟨hle, hhour⟩
    exact ⟨(24 * (t.date.day_number - d.day_number) + t.time / 3600000000).toNat, by omega⟩

namespace PartitionGranularity

/-- Days and weeks follow each other at one distance. -/
theorem reaches_days {g : PartitionGranularity} (h : g ≠ .HOURLY) (h' : g ≠ .MONTHLY)
    {d x : Date} :
    (g.dates h).Reaches d x ↔ d.day_number ≤ x.day_number ∧
      (g.get_delta : Int) ∣ x.day_number - d.day_number := by
  have hpos : 0 < (g.get_delta : Int) := by
    cases g with
    | HOURLY => exact absurd rfl h
    | _ => decide
  have hnext : ∀ {a a' : Date}, (g.dates h).next a = some a' ↔
      a'.day_number = a.day_number + g.get_delta := by
    intro a a'
    show g.next_date a = some a' ↔ _
    rw [next_date, if_neg h', Date.add_days_eq_some_iff]
  have hbetween : ∀ {a y : Date}, a.day_number + g.get_delta ≤ y.day_number →
      ∃ a' : Date, a'.day_number = a.day_number + g.get_delta := fun {a y} hle =>
    Date.exists_day_number_between a y (by omega) hle
  have hsteps := (g.dates h).reaches_iff_of_size (a := d) (x := x) Date.day_number_inj hnext
    hbetween hpos
  rw [hsteps]
  show (∃ k : Nat, x.day_number = d.day_number + k * g.get_delta) ↔ _
  constructor
  · intro ⟨k, hk⟩
    have hmul : 0 ≤ (k : Int) * g.get_delta := Int.mul_nonneg (Int.natCast_nonneg k) hpos.le
    exact ⟨by omega, k, by rw [Int.mul_comm]; omega⟩
  · intro ⟨hle, k, hk⟩
    have hk_nonneg : 0 ≤ k := by
      by_contra hneg
      have := Int.mul_neg_of_pos_of_neg hpos (not_le.mp hneg)
      omega
    exact ⟨k.toNat, by rw [Int.toNat_of_nonneg hk_nonneg, Int.mul_comm]; omega⟩

/-- Months follow each other at their first days. -/
theorem reaches_months {d x : Date} :
    (dates .MONTHLY (by decide)).Reaches d x ↔
      d.day_number ≤ x.day_number ∧ (x = d ∨ x.day = 1) := by
  constructor
  · intro hreach
    refine ⟨hreach.rank_le, ?_⟩
    rcases Relation.ReflTransGen.cases_tail hreach with heq | ⟨y, -, hnext⟩
    · exact .inl heq
    · exact .inr (index_of_next_month hnext).2
  · intro ⟨hle, hfirst⟩
    by_cases heq : x = d
    · rw [heq]
      exact .refl
    have hfirst := hfirst.resolve_left heq
    -- the induction is on the months in between
    have hmonths : ∀ (k : Nat) {d : Date}, x.index = d.index + k + 1 →
        (dates .MONTHLY (by decide)).Reaches d x := by
      intro k
      induction k with
      | zero =>
        intro d hk
        obtain ⟨d', hd'⟩ := next_month_isSome (d := d) (x := x) (by omega)
        have hnext := index_of_next_month hd'
        have hsame : d' = x := Date.day_number_inj (by
          rw [Date.day_number_of_first hnext.2, Date.day_number_of_first hfirst, hnext.1, hk]
          simp)
        rw [← hsame]
        exact .single hd'
      | succ k ih =>
        intro d hk
        push_cast at hk
        obtain ⟨d', hd'⟩ := next_month_isSome (d := d) (x := x) (by omega)
        have hnext := index_of_next_month hd'
        exact .head hd' (ih (by omega))
    have hlt : d.index < x.index := by
      by_contra hge
      have hmono := (Calendar.strict_mono_of_lt_succ Calendar.month_start_lt).monotone
        (not_lt.mp hge)
      have hstart := d.month_start_le
      rw [← Date.day_number_of_first hfirst] at hmono
      exact heq (Date.day_number_inj (by omega))
    exact hmonths (x.index - d.index - 1).toNat (by omega)

end PartitionGranularity

namespace TimePartitionDefinition

/-- `_get_end_date`. -/
def get_end_date (self : TimePartitionDefinition) (today : Date) : Date :=
  self.end_date.getD today

/-- `_iter_dates`. -/
def iter_dates (self : TimePartitionDefinition) (today : Date) (h : self.granularity ≠ .HOURLY) :
    Option (List Date) :=
  (self.granularity.dates h).loop (self.get_end_date today).day_number (fun _ => false)
    self.start_date

/-- A date is left out by a filter. -/
def filtered (start stop : Option Datetime) (d : Date) : Bool :=
  start.any (fun s => d.day_number < s.date.day_number) ||
    stop.any (fun e => e.date.day_number < d.day_number)

/-- The time is before the start filter. -/
def before (start : Option Datetime) (t : Datetime) : Bool :=
  start.any fun s => t.timestamp < s.timestamp

/-- The loop over hours breaks. -/
def breaks (start stop : Option Datetime) (t : Datetime) : Bool :=
  !before start t && stop.any (fun e => e.timestamp < t.timestamp)

/-- `HourlyPartition.get_partition_keys`. -/
def get_hourly_keys (self : TimePartitionDefinition) (today : Date)
    (start stop : Option Datetime) : Option (List String) :=
  (hours.loop (self.get_end_date today).last_time.timestamp (breaks start stop)
    self.start_date.midnight).map fun times =>
      (times.filter fun t => !before start t).map fun t => t.strftime self.fmt

/-- `get_partition_keys`; `none` is an exception. -/
def get_partition_keys (self : TimePartitionDefinition) (today : Date)
    (start stop : Option Datetime) : Option (List String) :=
  if h : self.granularity = .HOURLY then self.get_hourly_keys today start stop
  else (self.iter_dates today h).map fun dates =>
    (dates.filter fun d => !filtered start stop d).map fun d => d.midnight.strftime self.fmt

/-! ### Which keys these are -/

variable (self : TimePartitionDefinition) (today : Date) (start stop : Option Datetime)

/-- The time is in the range of the definition and passes the filters, which are compared with
    times for hours, and with dates otherwise. -/
structure InRange (t : Datetime) : Prop where
  start_le : self.start_date.day_number ≤ t.date.day_number
  le_end : t.date.day_number ≤ (self.get_end_date today).day_number
  filter : if self.granularity = .HOURLY then
      (∀ s ∈ start, s.timestamp ≤ t.timestamp) ∧ ∀ e ∈ stop, t.timestamp ≤ e.timestamp
    else (∀ s ∈ start, s.date.day_number ≤ t.date.day_number) ∧
      ∀ e ∈ stop, t.date.day_number ≤ e.date.day_number

/-- A partition begins at the time. -/
def Begins (t : Datetime) : Prop :=
  match self.granularity with
  | .HOURLY => 3600000000 ∣ t.time
  | .DAILY => t.time = 0
  | .WEEKLY => t.time = 0 ∧ 7 ∣ t.date.day_number - self.start_date.day_number
  | .MONTHLY => t.time = 0 ∧ (t.date = self.start_date ∨ t.date.day = 1)

variable {self today start stop}

/-- A loop over dates comes by the dates at which partitions begin. -/
theorem reaches_dates (h : self.granularity ≠ .HOURLY) {d : Date} :
    (self.granularity.dates h).Reaches self.start_date d ↔
      self.start_date.day_number ≤ d.day_number ∧ self.Begins d.midnight := by
  obtain ⟨start_date, end_date, fmt, granularity⟩ := self
  cases granularity with
  | HOURLY => exact absurd rfl h
  | DAILY =>
    rw [PartitionGranularity.reaches_days h fun heq => by cases heq]
    exact and_congr_right fun _ => iff_of_true (one_dvd _) rfl
  | WEEKLY =>
    rw [PartitionGranularity.reaches_days h fun heq => by cases heq]
    exact and_congr_right fun _ => (and_iff_right rfl).symm
  | MONTHLY =>
    refine PartitionGranularity.reaches_months.trans ?_
    exact and_congr_right fun _ => (and_iff_right rfl).symm

/-- Partitions begin at midnight, except for hours. -/
theorem Begins.midnight (h : self.granularity ≠ .HOURLY) {t : Datetime} (hbegins : self.Begins t) :
    t = t.date.midnight := by
  have htime : t.time = 0 := by
    unfold Begins at hbegins
    split at hbegins
    · next hg => exact absurd hg h
    · exact hbegins
    · exact hbegins.1
    · exact hbegins.1
  exact Datetime.ext rfl htime

theorem mem_daily_keys (h : self.granularity ≠ .HOURLY) {keys : List String}
    (hkeys : self.get_partition_keys today start stop = some keys) {key : String} :
    key ∈ keys ↔ ∃ t, self.InRange today start stop t ∧ self.Begins t ∧
      t.strftime self.fmt = key := by
  rw [get_partition_keys, dif_neg h] at hkeys
  obtain ⟨dates, hdates, rfl⟩ := Option.map_eq_some_iff.mp hkeys
  have hmem := Stepper.mem_loop (fun _ hleave => by cases hleave) hdates
  have hfilter : ∀ d : Date, filtered start stop d = false ↔
      (∀ s ∈ start, s.date.day_number ≤ d.day_number) ∧
        ∀ e ∈ stop, d.day_number ≤ e.date.day_number := by
    intro d
    cases start <;> cases stop <;> simp [filtered]
  rw [List.mem_map]
  constructor
  · intro ⟨d, hd, hkey⟩
    rw [List.mem_filter, hmem, reaches_dates h, Bool.not_eq_true'] at hd
    obtain ⟨⟨⟨hstart, hbegins⟩, hend, -⟩, hpass⟩ := hd
    exact ⟨d.midnight, ⟨hstart, hend, by rw [if_neg h]; exact (hfilter d).mp hpass⟩, hbegins, hkey⟩
  · intro ⟨t, ⟨hstart, hend, hpass⟩, hbegins, hkey⟩
    rw [if_neg h] at hpass
    have hmidnight := hbegins.midnight h
    refine ⟨t.date, ?_, by rw [← hmidnight]; exact hkey⟩
    rw [List.mem_filter, hmem, reaches_dates h, Bool.not_eq_true', ← hmidnight]
    exact ⟨⟨⟨hstart, hbegins⟩, hend, rfl⟩, (hfilter t.date).mpr hpass⟩

theorem mem_hourly_keys (h : self.granularity = .HOURLY) {keys : List String}
    (hkeys : self.get_partition_keys today start stop = some keys) {key : String} :
    key ∈ keys ↔ ∃ t, self.InRange today start stop t ∧ self.Begins t ∧
      t.strftime self.fmt = key := by
  rw [get_partition_keys, dif_pos h] at hkeys
  obtain ⟨times, htimes, rfl⟩ := Option.map_eq_some_iff.mp hkeys
  -- later times break as well
  have hmono : ∀ {t t' : Datetime}, hours.next t = some t' → breaks start stop t = true →
      breaks start stop t' = true := by
    intro t t' hnext hbreaks
    have hlt := hours.rank_lt hnext
    have hlt : t.timestamp < t'.timestamp := hlt
    cases start <;> cases stop <;> simp [breaks, before] at hbreaks ⊢ <;> omega
  have hmem := Stepper.mem_loop hmono htimes
  have hfilter : ∀ t : Datetime, breaks start stop t = false ∧ before start t = false ↔
      (∀ s ∈ start, s.timestamp ≤ t.timestamp) ∧ ∀ e ∈ stop, t.timestamp ≤ e.timestamp := by
    intro t
    cases start <;> cases stop <;> simp [breaks, before]
    omega
  have hend : ∀ t : Datetime,
      t.timestamp ≤ (self.get_end_date today).last_time.timestamp ↔
        t.date.day_number ≤ (self.get_end_date today).day_number := by
    intro t
    have hlt := t.time_lt
    show 86400000000 * t.date.day_number + (t.time : Int) ≤
      86400000000 * (self.get_end_date today).day_number + 86399999999 ↔ _
    omega
  have hbegins : ∀ t : Datetime, self.Begins t ↔ 3600000000 ∣ t.time := by
    intro t
    rw [Begins, h]
  rw [List.mem_map]
  constructor
  · intro ⟨t, ht, hkey⟩
    rw [List.mem_filter, hmem, reaches_hours, Bool.not_eq_true'] at ht
    obtain ⟨⟨⟨hstart, hhour⟩, hle, hbreaks⟩, hbefore⟩ := ht
    refine ⟨t, ⟨hstart, (hend t).mp hle, ?_⟩, (hbegins t).mpr hhour, hkey⟩
    rw [if_pos h]
    exact (hfilter t).mp ⟨hbreaks, hbefore⟩
  · intro ⟨t, ⟨hstart, hle, hpass⟩, hhour, hkey⟩
    rw [if_pos h] at hpass
    have hpass := (hfilter t).mpr hpass
    refine ⟨t, ?_, hkey⟩
    rw [List.mem_filter, hmem, reaches_hours, Bool.not_eq_true']
    exact ⟨⟨⟨hstart, (hbegins t).mp hhour⟩, (hend t).mpr hle, hpass.1⟩, hpass.2⟩

/-- **The keys of a range** name the times in it at which partitions begin. -/
theorem mem_get_partition_keys {keys : List String}
    (hkeys : self.get_partition_keys today start stop = some keys) {key : String} :
    key ∈ keys ↔ ∃ t, self.InRange today start stop t ∧ self.Begins t ∧
      t.strftime self.fmt = key := by
  by_cases h : self.granularity = .HOURLY
  · exact mem_hourly_keys h hkeys
  · exact mem_daily_keys h hkeys

/-- A range that ends before the year 9999 has its keys without an exception. -/
theorem get_partition_keys_isSome (hend : (self.get_end_date today).year ≤ 9998) :
    (self.get_partition_keys today start stop).isSome := by
  have hlast : (self.get_end_date today).day_number ≤ Calendar.days_before_year 9999 := by
    have hmono := (Calendar.strict_mono_of_lt_succ Calendar.days_before_year_lt).monotone
    exact (self.get_end_date today).toDate.day_number_le.trans (hmono (by omega))
  -- the last year leaves room for one more step
  have hroom : Calendar.days_before_year 9999 + 7 ≤ Date.max.day_number := by decide
  by_cases h : self.granularity = .HOURLY
  · rw [get_partition_keys, dif_pos h, get_hourly_keys, Option.isSome_map]
    refine Stepper.loop_isSome fun t _ hle _ => ?_
    have hle : 86400000000 * t.date.day_number + (t.time : Int) ≤
      86400000000 * (self.get_end_date today).day_number + 86399999999 := hle
    have hmax : Date.max.midnight.timestamp = 86400000000 * Date.max.day_number := Int.add_zero _
    have htime : t.timestamp = 86400000000 * t.date.day_number + t.time := rfl
    obtain ⟨t', ht'⟩ := Datetime.exists_timestamp_between t Date.max.midnight
      (n := t.timestamp + 3600000000) (by omega) (by omega)
    rw [hours_next]
    exact Option.isSome_iff_exists.mpr ⟨t', Datetime.add_hour_eq_some_iff.mpr ht'⟩
  · rw [get_partition_keys, dif_neg h, Option.isSome_map]
    refine Stepper.loop_isSome fun d _ hle _ => ?_
    have hle : d.day_number ≤ (self.get_end_date today).day_number := hle
    show (self.granularity.next_date d).isSome
    by_cases hmonthly : self.granularity = .MONTHLY
    · have hyear : d.year ≤ 9998 := Calendar.Date.year_le (hle.trans hlast)
      have hmonth := d.month_le
      have hmax : Date.max.index = 12 * 9999 + 11 := rfl
      have hindex : d.index < Date.max.index := by
        rw [hmax]
        unfold Calendar.Month.index
        omega
      rw [hmonthly]
      exact Option.isSome_iff_exists.mpr (PartitionGranularity.next_month_isSome hindex)
    · have hdelta : self.granularity.get_delta ≤ 7 := by cases self.granularity <;> decide
      rw [PartitionGranularity.next_date, if_neg hmonthly]
      obtain ⟨d', hd'⟩ := Date.exists_day_number_between d Date.max
        (n := d.day_number + self.granularity.get_delta) (by omega) (by omega)
      exact Option.isSome_iff_exists.mpr ⟨d', Date.add_days_eq_some_iff.mpr hd'⟩

end TimePartitionDefinition

end Servo.Python
