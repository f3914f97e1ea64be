import Servo.Python.Partitions
import Servo.Python.Strptime

/-! # Generated and Valid Keys

    `validate_partition_key` reads a key with the format of the definition and
    compares its date with the range. It does not ask whether a partition
    begins there, nor whether the key is written as the generator writes it. So
    every day of a week is valid for weeks, and so is a key without its zeros;
    and where the first month is not complete, its key lies before the range.
-/

namespace Servo.Python

/-! ### Keys are written in full width -/

theorem padded_of_toList {text : String} {length : Nat} (hlength : text.toList.length = length)
    (hchars : ∀ c ∈ text.toList, c.isDigit = true ∨ c = '-' ∨ c = 'T') : Padded length text :=
  ⟨by rw [← String.length_toList, hlength], hchars⟩

theorem length_pads (t : Datetime) : (Text.pad 4 t.date.year.toNat).toList.length = 4 ∧
    (Text.pad 2 t.date.month).toList.length = 2 ∧ (Text.pad 2 t.date.day).toList.length = 2 ∧
    (Text.pad 2 (t.time / 3600000000)).toList.length = 2 := by
  obtain ⟨hyear, hday, hhour⟩ := number_bounds t
  have hmonth := t.date.month_le
  refine ⟨?_, ?_, ?_, ?_⟩
  · exact Text.length_toList_pad (by decide) hyear
  · exact Text.length_toList_pad (by decide) (by omega)
  · exact Text.length_toList_pad (by decide) (by omega)
  · exact Text.length_toList_pad (by decide) (by omega)

theorem padded_strftime_day (t : Datetime) : Padded 10 (t.strftime "%Y-%m-%d") := by
  obtain ⟨hyear, hmonth, hday, -⟩ := length_pads t
  apply padded_of_toList
  · simp [toList_strftime_day, hyear, hmonth, hday]
  · intro c hc
    simp only [toList_strftime_day, List.mem_append, List.mem_cons] at hc
    rcases hc with hc | rfl | hc | rfl | hc
    · exact .inl (Text.mem_pad hc)
    · simp
    · exact .inl (Text.mem_pad hc)
    · simp
    · exact .inl (Text.mem_pad hc)

theorem padded_strftime_hour (t : Datetime) : Padded 13 (t.strftime "%Y-%m-%dT%H") := by
  obtain ⟨hyear, hmonth, hday, hhour⟩ := length_pads t
  apply padded_of_toList
  · simp [toList_strftime_hour, hyear, hmonth, hday, hhour]
  · intro c hc
    simp only [toList_strftime_hour, List.mem_append, List.mem_cons] at hc
    rcases hc with hc | rfl | hc | rfl | hc | rfl | hc
    · exact .inl (Text.mem_pad hc)
    · simp
    · exact .inl (Text.mem_pad hc)
    · simp
    · exact .inl (Text.mem_pad hc)
    · simp
    · exact .inl (Text.mem_pad hc)

theorem padded_strftime_month (t : Datetime) : Padded 10 (t.strftime "%Y-%m-01") := by
  obtain ⟨hyear, hmonth, -, -⟩ := length_pads t
  apply padded_of_toList
  · simp [toList_strftime_month, hyear, hmonth]
  · intro c hc
    simp only [toList_strftime_month, List.mem_append, List.mem_cons, List.not_mem_nil,
      or_false] at hc
    rcases hc with hc | rfl | hc | rfl | rfl | rfl
    · exact .inl (Text.mem_pad hc)
    · simp
    · exact .inl (Text.mem_pad hc)
    · simp
    · simp
    · simp

namespace PartitionGranularity

/-- The length of the keys. -/
def key_length : PartitionGranularity → Nat
  | .HOURLY => 13
  | _ => 10

/-- The time to which the generator goes on. -/
def next_time (self : PartitionGranularity) (t : Datetime) : Option Datetime :=
  if self = .HOURLY then t.add_hour else (self.next_date t.date).map Date.midnight

variable {g : PartitionGranularity} {start_date : Date} {end_date : Option Date} {key : String}
  {numerals : Numerals} {t : Datetime}

theorem padded_strftime (g : PartitionGranularity) (start_date : Date) (end_date : Option Date)
    (t : Datetime) : Padded g.key_length (t.strftime (g.definition start_date end_date).fmt) := by
  cases g with
  | HOURLY => exact padded_strftime_hour t
  | DAILY => exact padded_strftime_day t
  | WEEKLY => exact padded_strftime_day t
  | MONTHLY => exact padded_strftime_month t

/-- A key of full width is what is written of the time that is read. -/
theorem strftime_of_strptime
    (h : strptime numerals key (g.definition start_date end_date).fmt = some t)
    (hpadded : Padded g.key_length key) :
    t.strftime (g.definition start_date end_date).fmt = key := by
  cases g with
  | HOURLY => exact strftime_of_strptime_hour h hpadded
  | DAILY => exact strftime_of_strptime_day h hpadded
  | WEEKLY => exact strftime_of_strptime_day h hpadded
  | MONTHLY => exact strftime_of_strptime_month h hpadded

/-- The key of a time at which a partition begins is read as this time, except for months. -/
theorem strptime_strftime (numerals : Numerals) (hg : g ≠ .MONTHLY)
    (h : (g.definition start_date end_date).Begins t) :
    strptime numerals (t.strftime (g.definition start_date end_date).fmt)
      (g.definition start_date end_date).fmt = some t := by
  cases g with
  | HOURLY => exact strptime_strftime_hour numerals h
  | DAILY =>
    have hmidnight : t = t.date.midnight := Datetime.ext rfl h
    rw [hmidnight]
    exact strptime_strftime_day numerals t.date.midnight
  | WEEKLY =>
    have hmidnight : t = t.date.midnight := Datetime.ext rfl h.1
    rw [hmidnight]
    exact strptime_strftime_day numerals t.date.midnight
  | MONTHLY => exact absurd rfl hg

end PartitionGranularity

namespace TimePartitionDefinition

/-! ### The generator -/

section generator

variable {self : TimePartitionDefinition} {today : Date}

/-- The generator does not raise as long as it can go on after each partition of the range. -/
theorem get_partition_keys_isSome_iff :
    (self.get_partition_keys today none none).isSome ↔
      ∀ t, self.InRange today none none t → self.Begins t →
        (self.granularity.next_time t).isSome := by
  by_cases h : self.granularity = .HOURLY
  · have hbegins : ∀ t : Datetime, self.Begins t ↔ 3600000000 ∣ t.time := by
      intro t
      rw [Begins, h]
    -- a time is within the bound of the loop exactly if its date is in the range
    have hend : ∀ t : Datetime,
        t.timestamp ≤ (self.get_end_date today).last_time.timestamp ↔
          t.date.day_number ≤ (self.get_end_date today).day_number := by
      intro t
      have hlt := t.time_lt
      show 86400000000 * t.date.day_number + (t.time : Int) ≤
        86400000000 * (self.get_end_date today).day_number + 86399999999 ↔ _
      omega
    have hnever : ∀ t, breaks none none t = false := fun t => by simp [breaks]
    rw [get_partition_keys, dif_pos h, get_hourly_keys, Option.isSome_map]
    constructor
    · intro hloop t hin hhour
      rw [PartitionGranularity.next_time, if_pos h, ← hours_next]
      obtain ⟨hstart, hstop, -⟩ := hin
      exact Stepper.next_isSome_of_loop (fun _ hleave => by simp [hnever] at hleave) hloop
        (reaches_hours.mpr ⟨hstart, (hbegins t).mp hhour⟩) ((hend t).mpr hstop) (hnever t)
    · intro hcontinues
      refine Stepper.loop_isSome fun t hreach hle _ => ?_
      obtain ⟨hstart, hhour⟩ := reaches_hours.mp hreach
      have hin : self.InRange today none none t :=
        ⟨hstart, (hend t).mp hle, by simp⟩
      have hnext := hcontinues t hin ((hbegins t).mpr hhour)
      rwa [PartitionGranularity.next_time, if_pos h, ← hours_next] at hnext
  · rw [get_partition_keys, dif_neg h, Option.isSome_map]
    constructor
    · intro hloop t hin hbegins
      have hmidnight := hbegins.midnight h
      rw [PartitionGranularity.next_time, if_neg h, Option.isSome_map]
      rw [hmidnight] at hbegins
      obtain ⟨hstart, hstop, -⟩ := hin
      exact Stepper.next_isSome_of_loop (fun _ hleave => by cases hleave) hloop
        ((reaches_dates h).mpr ⟨hstart, hbegins⟩) hstop rfl
    · intro hcontinues
      refine Stepper.loop_isSome fun d hreach hle _ => ?_
      obtain ⟨hstart, hbegins⟩ := (reaches_dates h).mp hreach
      have hin : self.InRange today none none d.midnight := ⟨hstart, hle, by simp [h]⟩
      have hnext := hcontinues d.midnight hin hbegins
      rwa [PartitionGranularity.next_time, if_neg h, Option.isSome_map] at hnext

end generator

/-! ### The validator -/

variable (numerals : Numerals) (self : TimePartitionDefinition) (today : Date) (key : String)

/-- `validate_partition_key`. -/
def validate_partition_key : Bool :=
  match strptime numerals key self.fmt with
  | some parsed => self.start_date.day_number ≤ parsed.date.day_number &&
      parsed.date.day_number ≤ (self.get_end_date today).day_number
  | none => false

/-- The date is in the range. -/
def Covered (d : Date) : Prop :=
  self.start_date.day_number ≤ d.day_number ∧ d.day_number ≤ (self.get_end_date today).day_number

/-- The generator returns, and the key is valid exactly if it is one of the generated keys. -/
def Agrees : Prop :=
  ∃ keys, self.get_partition_keys today none none = some keys ∧
    (self.validate_partition_key numerals today key = true ↔ key ∈ keys)

/-- What the generator and the validator agree under. -/
structure Consistent (numerals : Numerals) (p : TimePartitionDefinition) (today : Date)
    (key : String) : Prop where
  /-- The generator can go on after each partition of the range. -/
  continues : ∀ t, p.InRange today none none t → p.Begins t →
    (p.granularity.next_time t).isSome
  /-- A key that is read as a time in the range is written in full width, and a partition begins
      at the time. -/
  regular : ∀ t, strptime numerals key p.fmt = some t → p.Covered today t.date →
    Padded p.granularity.key_length key ∧ p.Begins t
  /-- It is not the key of a first month that is not complete. -/
  complete : p.granularity = .MONTHLY → p.start_date.day ≠ 1 →
    p.Covered today p.start_date → key ≠ p.start_date.midnight.strftime p.fmt

variable {numerals self today key}

theorem validate_iff : self.validate_partition_key numerals today key = true ↔
    ∃ t, strptime numerals key self.fmt = some t ∧ self.Covered today t.date := by
  unfold validate_partition_key
  cases strptime numerals key self.fmt with
  | none => simp
  | some t => simp [Covered]

/-- Without filters, the range is that of the dates. -/
theorem inRange_iff {t : Datetime} :
    self.InRange today none none t ↔ self.Covered today t.date := by
  constructor
  · intro h
    obtain ⟨hstart, hstop, -⟩ := h
    exact ⟨hstart, hstop⟩
  · exact fun h => ⟨h.1, h.2, by simp⟩

/-- A date before the first of its month is in another month. -/
theorem day_number_first {d x : Date} (h : date d.year d.month 1 = some x) :
    x.day_number + d.day = d.day_number + 1 := by
  obtain ⟨hyear, hmonth, hday⟩ := of_date_eq_some h
  have hindex : x.index = d.index := by
    unfold Calendar.Month.index
    rw [hyear, hmonth]
  have hpos := d.day_pos
  rw [Date.day_number_of_first hday, hindex]
  unfold Calendar.Date.day_number
  omega

theorem mem_keys_iff {keys : List String}
    (hkeys : self.get_partition_keys today none none = some keys) :
    key ∈ keys ↔ ∃ t, self.Covered today t.date ∧ self.Begins t ∧ t.strftime self.fmt = key := by
  simp only [mem_get_partition_keys hkeys, inRange_iff]

/-! ### Where they agree -/

section agreement

variable {g : PartitionGranularity} {start_date : Date} {end_date : Option Date}

theorem consistent_of_agrees (h : Agrees numerals (g.definition start_date end_date) today key) :
    Consistent numerals (g.definition start_date end_date) today key := by
  obtain ⟨keys, hkeys, hiff⟩ := h
  rw [validate_iff, mem_keys_iff hkeys] at hiff
  constructor
  · exact get_partition_keys_isSome_iff.mp (by rw [hkeys]; rfl)
  · intro t ht hcovered
    obtain ⟨t', -, hbegins, hkey⟩ := hiff.mp ⟨t, ht, hcovered⟩
    have hgranularity : (g.definition start_date end_date).granularity = g := by cases g <;> rfl
    rw [hgranularity]
    refine ⟨hkey ▸ g.padded_strftime start_date end_date t', ?_⟩
    by_cases hmonthly : g = .MONTHLY
    · subst hmonthly
      obtain ⟨hday, htime⟩ := first_of_strptime_month ht
      exact ⟨htime, .inr hday⟩
    · rw [← hkey, PartitionGranularity.strptime_strftime numerals hmonthly hbegins] at ht
      cases ht
      exact hbegins
  · intro hmonthly hday hcovered hkey
    have hg : g = .MONTHLY := by
      cases g <;> first | rfl | cases hmonthly
    subst hg
    -- the key is generated, and read as a day before the range
    obtain ⟨t, ht, hcovered'⟩ := hiff.mpr
      ⟨start_date.midnight, hcovered, ⟨rfl, .inl rfl⟩, hkey.symm⟩
    obtain ⟨x, hx, hread⟩ := strptime_strftime_month numerals start_date.midnight
    rw [hkey] at ht
    have hsame : some x.midnight = some t := hread.symm.trans ht
    cases hsame
    have hfirst := day_number_first hx
    have hpos := start_date.day_pos
    have hle : start_date.day_number ≤ x.day_number := hcovered'.1
    have hday : start_date.day ≠ 1 := hday
    have hfirst : x.day_number + start_date.day = start_date.day_number + 1 := hfirst
    omega

theorem agrees_of_consistent
    (h : Consistent numerals (g.definition start_date end_date) today key) :
    Agrees numerals (g.definition start_date end_date) today key := by
  obtain ⟨hcontinues, hregular, hcomplete⟩ := h
  obtain ⟨keys, hkeys⟩ := Option.isSome_iff_exists.mp (get_partition_keys_isSome_iff.mpr hcontinues)
  refine ⟨keys, hkeys, ?_⟩
  rw [validate_iff, mem_keys_iff hkeys]
  have hgranularity : (g.definition start_date end_date).granularity = g := by cases g <;> rfl
  rw [hgranularity] at hregular
  constructor
  · intro hvalid
    obtain ⟨t, ht, hcovered⟩ := hvalid
    obtain ⟨hpadded, hbegins⟩ := hregular t ht hcovered
    exact ⟨t, hcovered, hbegins, PartitionGranularity.strftime_of_strptime ht hpadded⟩
  · intro hmem
    obtain ⟨t, hcovered, hbegins, rfl⟩ := hmem
    by_cases hmonthly : g = .MONTHLY
    · subst hmonthly
      obtain ⟨x, hx, hread⟩ := strptime_strftime_month numerals t
      by_cases hday : t.date.day = 1
      · rw [← hday, date_self] at hx
        cases hx
        exact ⟨_, hread, hcovered⟩
      · -- the first month is not complete
        have hstart : t.date = start_date := hbegins.2.resolve_right hday
        have hmidnight : t = start_date.midnight := Datetime.ext hstart hbegins.1
        rw [hmidnight] at hcovered hday
        refine absurd ?_ (hcomplete rfl hday hcovered)
        rw [hmidnight]
        rfl
    · exact ⟨t, PartitionGranularity.strptime_strftime numerals hmonthly hbegins, hcovered⟩

/-- **The generator and the validator agree on a key** exactly if the definition and the key are
    consistent. -/
theorem agrees_iff (numerals : Numerals) (g : PartitionGranularity) (start_date : Date)
    (end_date : Option Date) (today : Date) (key : String) :
    Agrees numerals (g.definition start_date end_date) today key ↔
      Consistent numerals (g.definition start_date end_date) today key :=
  ⟨consistent_of_agrees, agrees_of_consistent⟩

end agreement

/-! ### Keys on which they differ -/

theorem january_le_december : 1 ≤ 12 := by decide

/-- A day of January 2023. -/
def january (day : Fin 31) : Date where
  year := 2023
  month := 1
  month_pos := by decide
  month_le := january_le_december
  day := day + 1
  day_pos := Nat.succ_pos day
  day_le := day.2
  min_year := by decide
  max_year := by decide

/-- The weeks from the second of January, the months from the fifteenth, and a day that is
    written without zeros. -/
theorem generator_and_validator_differ :
    ¬ Agrees latin_numerals (WeeklyPartition (january 1) (some (january 30))) (january 30)
        "2023-01-03" ∧
      ¬ Agrees latin_numerals (MonthlyPartition (january 14) (some (january 30))) (january 30)
        "2023-01-01" ∧
      ¬ Agrees latin_numerals (DailyPartition (january 1) (some (january 30))) (january 30)
        "2023-1-3" := by
  refine ⟨?_, ?_, ?_⟩
  · intro h
    have hconsistent := @consistent_of_agrees _ _ _ .WEEKLY _ _ h
    have hkey : (january 2).midnight.strftime "%Y-%m-%d" = "2023-01-03" := by decide
    have hread := strptime_strftime_day latin_numerals (january 2).midnight
    rw [hkey] at hread
    have hbegins := (hconsistent.regular _ hread ⟨by decide, by decide⟩).2
    exact absurd hbegins.2 (by decide)
  · intro h
    have hconsistent := @consistent_of_agrees _ _ _ .MONTHLY _ _ h
    exact hconsistent.complete rfl (by decide) ⟨by decide, by decide⟩ (by decide)
  · intro h
    have hconsistent := @consistent_of_agrees _ _ _ .DAILY _ _ h
    have hread : strptime latin_numerals "2023-1-3" "%Y-%m-%d" =
      some (january 2).midnight := by rfl
    have hpadded := (hconsistent.regular _ hread ⟨by decide, by decide⟩).1
    exact absurd hpadded.length (by decide)

end TimePartitionDefinition

end Servo.Python
