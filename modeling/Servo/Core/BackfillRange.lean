import Servo.Core.CalendarTiling
import Servo.Core.KeyNotations

/-! # The Range of a Backfill

    The validator takes a range when its first key is less than its last one,
    as texts. That is the order of time for keys that are written in one of the
    documented notations, with a year of four digits. Every other key is out of
    order with a canonical one: if it is not canonical itself, with that of the
    period it denotes, and if its year has a sign, with one of the years around.
-/

namespace Servo

open Calendar

variable {NaiveDate NaiveDateTime : Type}

/-! ### The code -/

section code
variable (chrono : Chrono NaiveDate NaiveDateTime)

/-- `validate_backfill_range`. -/
def validate_backfill_range (start_key end_key : String) (partition_config : PartitionConfig) :
    Except ValidationError Unit := do
  -- Validate both keys have correct format
  validate_key_format chrono start_key partition_config.partition_type
  validate_key_format chrono end_key partition_config.partition_type
  -- Validate start < end
  if start_key ≥ end_key then
    .error (.InvalidKeyFormat (start_key ++ " to " ++ end_key) partition_config.partition_type)
  else .ok ()

end code

/-- The key denotes the period. -/
def DenotesPeriod (chrono : Chrono NaiveDate NaiveDateTime) (date : NaiveDate → Date)
    (hour : NaiveDateTime → Int) (key : String) : Period → Prop
  | .hour d h _ => ∃ time ∈ parse_hourly_key chrono key, hour time = 24 * d.day_number + h
  | .day d => ∃ x ∈ parse_daily_key chrono key, date x = d
  | .week w => DenotesWeek chrono date key w
  | .month m => parse_monthly_key key = some (m.year, m.month)
  | .year y => parse_i32 key = some y

/-- The range is accepted if and only if its first period begins before its last one. -/
def OrdersByTime (chrono : Chrono NaiveDate NaiveDateTime) (date : NaiveDate → Date)
    (hour : NaiveDateTime → Int) (config : PartitionConfig) (granularity : TimeGranularity)
    (start_key end_key : String) : Prop :=
  validate_backfill_range chrono start_key end_key config = .ok () ↔
    ∃ p q : Period, p.granularity = granularity ∧ q.granularity = granularity ∧
      DenotesPeriod chrono date hour start_key p ∧ DenotesPeriod chrono date hour end_key q ∧
      p.begins < q.begins

/-- The key is in order with the canonical key of its own period, and with all canonical keys up
    to the year 9999. -/
def WellOrdered (chrono : Chrono NaiveDate NaiveDateTime) (date : NaiveDate → Date)
    (hour : NaiveDateTime → Int) (config : PartitionConfig) (granularity : TimeGranularity)
    (key : String) : Prop :=
  ∀ q : Period, q.granularity = granularity → HasKey q →
    q.year_of ≤ 9999 ∨ DenotesPeriod chrono date hour key q →
    OrdersByTime chrono date hour config granularity key (canonical_key q) ∧
      OrdersByTime chrono date hour config granularity (canonical_key q) key

/-- Range validation orders by time. -/
structure RangesByTime (chrono : Chrono NaiveDate NaiveDateTime) (date : NaiveDate → Date)
    (hour : NaiveDateTime → Int) (config : PartitionConfig) (granularity : TimeGranularity) :
    Prop where
  /-- In the first notation. -/
  canonical : ∀ p q : Period, p.granularity = granularity → q.granularity = granularity →
    plain_year p.year_of → plain_year q.year_of →
    OrdersByTime chrono date hour config granularity (canonical_key p) (canonical_key q)
  /-- In the second. -/
  alternative : ∀ p q : Period, p.granularity = granularity → q.granularity = granularity →
    plain_year (alternative_year p) → plain_year (alternative_year q) →
    OrdersByTime chrono date hour config granularity (alternative_key p) (alternative_key q)
  /-- Among the canonical keys there is no room for others. -/
  others : ∀ key, validate_key_format chrono key config.partition_type = .ok () →
    (WellOrdered chrono date hour config granularity key ↔
      ∃ p : Period, p.granularity = granularity ∧ plain_year p.year_of ∧ key = canonical_key p)

/-! ### Keys denote their periods -/

theorem parse_year_text {y : Int} (h : -2 ^ 31 ≤ y) (h' : y < 2 ^ 31) :
    parse_i32 (year_text y) = some y := by
  unfold year_text parse_i32
  split
  · rw [Text.parse_signed_pad (by omega)]
    exact congrArg some (by omega)
  · split
    · rw [Text.parse_signed_minus (by omega)]
      exact congrArg some (by omega)
    · rw [Text.parse_signed_plus (by omega)]
      exact congrArg some (by omega)

/-- Two parts without hyphens. -/
theorem split_two {front rest : String} (h : '-' ∉ front.toList) (h' : '-' ∉ rest.toList) :
    split (front ++ "-" ++ rest) "-" = [front, rest] := by
  have hdash : "-".toList = ['-'] := rfl
  rw [split, hdash, String.toList_append, String.toList_append, hdash, Text.split_append h,
    Text.split_of_notMem h']
  simp only [List.map_cons, List.map_nil, String.ofList_toList]

theorem year_text_no_dash {y : Int} (h : 0 ≤ y) : '-' ∉ (year_text y).toList := by
  have hpad : ∀ n, '-' ∉ (Text.pad 4 n).toList := fun n hmem =>
    absurd (Text.mem_pad hmem) (by decide)
  unfold year_text
  split
  · exact hpad _
  · rw [if_neg (by omega), String.toList_append, List.mem_append, not_or]
    exact ⟨by decide, hpad _⟩

theorem split_month_key {m : Month} (h : 0 ≤ m.year) :
    split (Period.month m).key "-" = [year_text m.year, Text.pad 2 m.month] :=
  split_two (year_text_no_dash h) fun hmem => absurd (Text.mem_pad hmem) (by decide)

theorem parse_year_key_canonical {y : Int} (h : HasKey (.year y)) :
    parse_i32 (canonical_key (.year y)) = some y := by
  have hlow : -999 ≤ y := h.1
  have hhigh : y ≤ 9999 := h.2
  show parse_i32 (if y < 0 then _ else _) = _
  unfold parse_i32
  split
  · rw [Text.parse_signed_minus (by omega)]
    exact congrArg some (by omega)
  · rw [Text.parse_signed_pad (by omega)]
    exact congrArg some (by omega)

variable {chrono : Chrono NaiveDate NaiveDateTime} {date : NaiveDate → Date}
  {hour leap_hour : NaiveDateTime → Int} {key : String} {p q : Period}

/-- The validator accepts what denotes an hour. -/
theorem is_hourly_key_iff :
    is_time_key chrono key .Hourly = true ↔ (parse_hourly_key chrono key).isSome = true := by
  simp only [is_time_key, parse_hourly_key, Option.isSome_or, Bool.or_eq_true]
  tauto

section exact
variable (doc : chrono.Exact date hour leap_hour)
include doc

/-- A key denotes at most one period of a granularity. -/
theorem denotes_period_unique (hg : p.granularity = q.granularity)
    (hp : DenotesPeriod chrono date hour key p) (hq : DenotesPeriod chrono date hour key q) :
    p = q := by
  apply Period.index_inj hg
  cases p with
  | hour d h hh =>
    cases q with
    | hour d' h' hh' =>
      obtain ⟨time, htime, hhour⟩ := hp
      obtain ⟨time', htime', hhour'⟩ := hq
      cases htime.symm.trans htime'
      exact hhour.symm.trans hhour'
    | _ => cases hg
  | day d =>
    cases q with
    | day d' =>
      obtain ⟨x, hx, rfl⟩ := hp
      obtain ⟨x', hx', rfl⟩ := hq
      cases hx.symm.trans hx'
      rfl
    | _ => cases hg
  | week w =>
    cases q with
    | week w' => exact congrArg Week.index (denotes_week_unique doc hp hq)
    | _ => cases hg
  | month m =>
    cases q with
    | month m' =>
      have hpair := Option.some.inj (hp.symm.trans hq)
      exact congrArg Month.index (Month.ext (congrArg Prod.fst hpair) (congrArg Prod.snd hpair))
    | _ => cases hg
  | year y =>
    cases q with
    | year y' => exact Option.some.inj (hp.symm.trans hq)
    | _ => cases hg

/-- A canonical key denotes its period. -/
theorem denotes_canonical_key (h : HasKey p) :
    DenotesPeriod chrono date hour (canonical_key p) p := by
  cases p with
  | hour d h' hh =>
    obtain ⟨time, htime, hhour⟩ := doc.parse_hour d h' h hh
    refine ⟨time, ?_, hhour⟩
    show ((chrono.parse_date_time (hour_key d h') _).or _) = some time
    rw [htime]
    rfl
  | day d => exact doc.parse_daily_key h
  | week w =>
    have hweek := w.week_le
    have hbound := (first_week_succ w.year).2.2
    exact .inl ⟨year_text w.year, Text.pad 2 w.week, rfl, parse_year_text h.1 h.2,
      parse_u32_pad (by omega)⟩
  | month m =>
    have hmonth := m.month_le
    show parse_monthly_key (Period.month m).key = _
    rw [parse_monthly_key, split_month_key h.1]
    simp only [parse_year_text (y := m.year) (by have := h.1; omega) h.2,
      parse_u32_pad (show m.month ≤ 9999 by omega)]
    exact if_pos ⟨m.month_pos, hmonth⟩
  | year y => exact parse_year_key_canonical h

/-- An alternative key denotes its period, too. -/
theorem denotes_alternative_key (h : plain_year (alternative_year p)) :
    DenotesPeriod chrono date hour (alternative_key p) p := by
  cases p with
  | hour d h' hh =>
    have hlow : 0 ≤ d.year := h.1
    have hhigh : d.year ≤ 9999 := h.2
    have hd : representable d.day_number := representable_iff_year.mpr ⟨by omega, by omega⟩
    obtain ⟨time, htime, hhour⟩ := doc.parse_iso_hour d h' hd hh
    refine ⟨time, ?_, hhour⟩
    -- the other formats have no `T`
    have hT : 'T' ∈ (iso_hour_key d h').toList := by
      simp [iso_hour_key]
    have hnone : ∀ format ∈ time_formats, 'T' ∉ format.toList →
        chrono.parse_date_time (iso_hour_key d h') format = none := by
      intro format hformat hno
      rw [← Option.not_isSome_iff_eq_none]
      intro hsome
      rcases doc.parse_time_chars _ format hformat hsome 'T' hT with hchar | hchar | hchar
      · exact absurd hchar (by decide)
      · exact absurd hchar (by decide)
      · exact hno hchar.2
    show ((chrono.parse_date_time (iso_hour_key d h') "%Y-%m-%d %H:%M:%S").or
      ((chrono.parse_date_time (iso_hour_key d h') "%Y-%m-%d %H:00:00").or
        (chrono.parse_date_time (iso_hour_key d h') "%Y-%m-%dT%H:%M:%S"))) = some time
    rw [hnone _ (by decide) (by decide), hnone _ (by decide) (by decide), htime]
    rfl
  | week w =>
    have hlow : 0 ≤ (day_of_number (monday w.index)).year := h.1
    have hhigh : (day_of_number (monday w.index)).year ≤ 9999 := h.2
    obtain ⟨x, hx, hdate⟩ := doc.parse_daily_key (d := day_of_number (monday w.index))
      (representable_iff_year.mpr ⟨by omega, by omega⟩)
    refine .inr ⟨x, hx, ?_⟩
    rw [hdate, day_number_day_of_number]
    omega
  | day d =>
    have hlow : 0 ≤ d.year := h.1
    have hhigh : d.year ≤ 9999 := h.2
    exact denotes_canonical_key doc (p := .day d)
      (representable_iff_year.mpr ⟨by omega, by omega⟩)
  | month m =>
    have hlow : 0 ≤ m.year := h.1
    have hhigh : m.year ≤ 9999 := h.2
    exact denotes_canonical_key doc (p := .month m) ⟨hlow, by omega⟩
  | year y =>
    have hlow : 0 ≤ y := h.1
    exact denotes_canonical_key doc (p := .year y) ⟨by omega, h.2⟩

/-! ### Keys that are accepted -/

/-- A canonical key is accepted. -/
theorem is_canonical_key (h : HasKey p) :
    is_time_key chrono (canonical_key p) p.granularity = true := by
  cases p with
  | hour d h' hh => exact doc.is_hour_key h hh
  | day d =>
    obtain ⟨x, hx, -⟩ := doc.parse_daily_key h
    exact Option.isSome_iff_exists.mpr ⟨x, hx⟩
  | week w =>
    have hinfix : "-W".toList <:+: (Period.week w).key.toList :=
      is_iso_of_names_week (w := w) ⟨year_text w.year, Text.pad 2 w.week, rfl,
        parse_year_text h.1 h.2, by
          have hweek := w.week_le
          have hbound := (first_week_succ w.year).2.2
          exact parse_u32_pad (by omega)⟩
    have hsize : 7 ≤ (Period.week w).key.utf8ByteSize := by
      have hbytes := Text.length_le_utf8ByteSize (Period.week w).key.toList
      rw [String.ofList_toList, String.length_toList] at hbytes
      have hyear : 4 ≤ (year_text w.year).length := by
        unfold year_text
        split
        · exact Text.le_length_pad 4 _
        · rw [String.length_append]
          have := Text.le_length_pad 4 w.year.natAbs
          omega
      have hlength : (Period.week w).key.length =
          (year_text w.year).length + "-W".length + (Text.pad 2 w.week).length := by
        show (year_text w.year ++ "-W" ++ Text.pad 2 w.week).length = _
        rw [String.length_append, String.length_append]
      have hdash : "-W".length = 2 := rfl
      have hweek := Text.le_length_pad 2 w.week
      omega
    show is_time_key chrono (Period.week w).key .Weekly = true
    simp only [is_time_key, hinfix, hsize, decide_true, Bool.true_and, Bool.true_or]
  | month m =>
    have hlow : 0 ≤ m.year := h.1
    have hmonth := m.month_le
    show is_time_key chrono (Period.month m).key .Monthly = true
    simp only [is_time_key, split_month_key hlow, parse_year_text (y := m.year) (by omega) h.2,
      parse_u32_pad (show m.month ≤ 9999 by omega), Option.isSome_some, Option.any_some,
      Bool.true_and, Bool.and_eq_true, decide_eq_true_eq]
    exact ⟨m.month_pos, hmonth⟩
  | year y =>
    have hlow : -999 ≤ y := h.1
    have hhigh : y ≤ 9999 := h.2
    have hsize : (canonical_key (.year y)).utf8ByteSize = 4 := by
      show (if y < 0 then _ else _ : String).utf8ByteSize = 4
      split
      · rw [String.utf8ByteSize_append, Text.utf8ByteSize_pad (by decide) (by omega)]
        rfl
      · exact Text.utf8ByteSize_pad (by decide) (by omega)
    show is_time_key chrono (canonical_key (.year y)) .Yearly = true
    simp only [is_time_key, parse_year_key_canonical h, hsize, Option.isSome_some, decide_true,
      Bool.and_self]

/-- An alternative key is accepted. -/
theorem is_alternative_key (h : plain_year (alternative_year p)) :
    is_time_key chrono (alternative_key p) p.granularity = true := by
  have hdenotes := denotes_alternative_key doc h
  cases p with
  | hour d h' hh =>
    obtain ⟨time, htime, -⟩ := hdenotes
    exact is_hourly_key_iff.mpr (Option.isSome_iff_exists.mpr ⟨time, htime⟩)
  | week w =>
    have hlow : 0 ≤ (day_of_number (monday w.index)).year := h.1
    have hhigh : (day_of_number (monday w.index)).year ≤ 9999 := h.2
    obtain ⟨x, hx, -⟩ := doc.parse_daily_key (d := day_of_number (monday w.index))
      (representable_iff_year.mpr ⟨by omega, by omega⟩)
    have hsome : (chrono.parse_date (date_key (day_of_number (monday w.index)))
        "%Y-%m-%d").isSome = true := Option.isSome_iff_exists.mpr ⟨x, hx⟩
    show is_time_key chrono (date_key (day_of_number (monday w.index))) .Weekly = true
    rw [is_time_key, hsome, Bool.or_true]
  | day d =>
    have hlow : 0 ≤ d.year := h.1
    have hhigh : d.year ≤ 9999 := h.2
    exact is_canonical_key doc (p := .day d) (representable_iff_year.mpr ⟨by omega, by omega⟩)
  | month m =>
    have hlow : 0 ≤ m.year := h.1
    have hhigh : m.year ≤ 9999 := h.2
    exact is_canonical_key doc (p := .month m) ⟨hlow, by omega⟩
  | year y =>
    have hlow : 0 ≤ y := h.1
    exact is_canonical_key doc (p := .year y) ⟨by omega, h.2⟩

end exact

/-- A number of four bytes. -/
theorem parse_i32_bounds {value : Int} (h : parse_i32 key = some value)
    (hsize : key.utf8ByteSize = 4) : -999 ≤ value ∧ value ≤ 9999 := by
  have hbytes := Text.length_le_utf8ByteSize key.toList
  rw [String.ofList_toList, hsize] at hbytes
  unfold parse_i32 Text.parse_signed at h
  split at h
  · next digits heq =>
    simp only [Option.ite_none_left_eq_some, Option.ite_none_right_eq_some, Bool.or_eq_true,
      Bool.not_eq_true', not_or, Bool.not_eq_false, List.all_eq_true] at h
    obtain ⟨⟨-, hall⟩, -, hvalue⟩ := h
    cases hvalue
    have hlt := Text.of_digits_lt hall
    rw [heq, List.length_cons] at hbytes
    have hpow : 10 ^ digits.length ≤ 10 ^ 3 := Nat.pow_le_pow_right (by decide) (by omega)
    omega
  · obtain ⟨n, hn, rfl⟩ := Option.map_eq_some_iff.mp h
    unfold Text.parse_unsigned at hn
    simp only [Option.ite_none_left_eq_some, Option.ite_none_right_eq_some, Bool.or_eq_true,
      Bool.not_eq_true', not_or, Bool.not_eq_false, List.all_eq_true] at hn
    obtain ⟨⟨-, hall⟩, -, hvalue⟩ := hn
    cases hvalue
    have hlt := Text.of_digits_lt hall
    have hlength : (if key.toList.head? = some '+' then key.toList.tail else key.toList).length
        ≤ 4 := by
      split
      · rw [List.length_tail]
        omega
      · exact hbytes
    have hpow := Nat.pow_le_pow_right (show 0 < 10 by decide) hlength
    have hcast := Int.ofNat_le.mpr (Nat.le_of_lt_succ (Nat.lt_of_lt_of_le hlt hpow))
    have hpos := Int.natCast_nonneg
      (Nat.ofDigitChars 10 (if key.toList.head? = some '+' then key.toList.tail else key.toList) 0)
    exact ⟨Int.le_trans (by decide) hpos, hcast⟩

/-- What an accepted key denotes has a canonical key. -/
theorem has_key_of_denotes (doc : chrono.Exact date hour leap_hour)
    (hkey : is_time_key chrono key p.granularity = true)
    (h : DenotesPeriod chrono date hour key p) : HasKey p := by
  cases p with
  | hour d h' hh =>
    obtain ⟨time, -, hhour⟩ := h
    have hrange := doc.hour_representable time
    rw [hhour, show (24 * d.day_number + (h' : Int)) / 24 = d.day_number by omega] at hrange
    exact hrange
  | day d =>
    obtain ⟨x, -, rfl⟩ := h
    exact doc.date_representable x
  | week w =>
    rcases h with ⟨year, week, -, hyear, -⟩ | ⟨x, -, hlow, hhigh⟩
    · exact ⟨Text.le_of_parse_signed hyear, Text.parse_signed_lt (by decide) hyear⟩
    · have hrange := doc.date_representable x
      have hbounds := w.monday_bounds
      have hmono := (strict_mono_of_lt_succ days_before_year_lt).monotone
      unfold representable first_day last_day at hrange
      constructor
      · by_contra hnot
        have hyear := hmono (show w.year + 1 ≤ -262144 by omega)
        have hstep := days_before_year_succ (-262144)
        norm_num at hstep
        split at hstep <;> omega
      · by_contra hnot
        have hyear := hmono (show 262144 ≤ w.year by omega)
        have hstep := days_before_year_succ 262143
        norm_num at hstep
        split at hstep <;> omega
  | month m =>
    obtain ⟨hsome, hlength⟩ := is_monthly_key_iff.mp hkey
    have hmonth : parse_monthly_key key = some (m.year, m.month) := h
    obtain ⟨year, month, hsplit⟩ := List.length_eq_two.mp hlength
    simp only [parse_monthly_key, hsplit] at hmonth
    have hno : '-' ∉ year.toList := notMem_of_mem_split (by rw [hsplit]; exact List.mem_cons_self)
    cases hyear : parse_i32 year with
    | none =>
      rw [hyear] at hmonth
      cases hmonth
    | some y =>
      cases hnumber : parse_u32 month with
      | none =>
        rw [hyear, hnumber] at hmonth
        cases hmonth
      | some n =>
        simp only [hyear, hnumber, Option.ite_none_right_eq_some] at hmonth
        have hy : y = m.year := congrArg Prod.fst (Option.some.inj hmonth.2)
        subst hy
        exact ⟨Text.parse_signed_nonneg hyear hno, Text.parse_signed_lt (by decide) hyear⟩
  | year y =>
    have hsize : ((parse_i32 key).isSome && decide (key.utf8ByteSize = 4)) = true := hkey
    rw [Bool.and_eq_true, decide_eq_true_eq] at hsize
    exact parse_i32_bounds h hsize.2

/-! ### The order of the keys -/

section order
variable {config : PartitionConfig} {granularity : TimeGranularity} {start_key end_key : String}

/-- What the validator compares. -/
theorem validate_backfill_range_eq_ok_iff
    (hstart : validate_key_format chrono start_key config.partition_type = .ok ())
    (hend : validate_key_format chrono end_key config.partition_type = .ok ()) :
    validate_backfill_range chrono start_key end_key config = .ok () ↔ start_key < end_key := by
  have hcode : validate_backfill_range chrono start_key end_key config =
      if start_key ≥ end_key then .error (.InvalidKeyFormat (start_key ++ " to " ++ end_key)
        config.partition_type)
      else .ok () := by
    unfold validate_backfill_range
    rw [hstart, hend]
    rfl
  rw [hcode]
  by_cases hle : start_key ≥ end_key
  · rw [if_pos hle]
    exact iff_of_false nofun (String.not_lt.mpr hle)
  · rw [if_neg hle]
    exact iff_of_true rfl (String.not_le.mp hle)

/-- The order of two keys that denote these periods, and no others. -/
theorem orders_by_time_iff (doc : chrono.Exact date hour leap_hour)
    (hstart : validate_key_format chrono start_key config.partition_type = .ok ())
    (hend : validate_key_format chrono end_key config.partition_type = .ok ())
    (hp : p.granularity = granularity) (hq : q.granularity = granularity)
    (hpden : DenotesPeriod chrono date hour start_key p)
    (hqden : DenotesPeriod chrono date hour end_key q) :
    OrdersByTime chrono date hour config granularity start_key end_key ↔
      (start_key < end_key ↔ p.index < q.index) := by
  unfold OrdersByTime
  rw [validate_backfill_range_eq_ok_iff hstart hend]
  refine iff_congr Iff.rfl ?_
  constructor
  · intro ⟨p', q', hp', hq', hpden', hqden', hbegins⟩
    have hsame := denotes_period_unique doc (hp'.trans hp.symm) hpden' hpden
    have hsame' := denotes_period_unique doc (hq'.trans hq.symm) hqden' hqden
    subst hsame hsame'
    exact (Period.begins_lt_iff (hp.trans hq.symm)).mp hbegins
  · intro hlt
    exact ⟨p, q, hp, hq, hpden, hqden, (Period.begins_lt_iff (hp.trans hq.symm)).mpr hlt⟩

end order

/-- Keys that are less for earlier periods are greater for later ones. -/
theorem lt_iff_of_lt {key : Period → String} (hg : p.granularity = q.granularity)
    (h : p.index < q.index → key p < key q) (h' : q.index < p.index → key q < key p) :
    key p < key q ↔ p.index < q.index := by
  refine ⟨fun hlt => ?_, h⟩
  by_contra hnot
  by_cases heq : p.index = q.index
  · have hsame := Period.index_inj hg heq
    subst hsame
    exact String.lt_irrefl _ hlt
  · exact String.lt_asymm hlt (h' (by omega))

/-- Keys without a sign are in order with all up to the year 9999. -/
theorem canonical_lt_iff (hg : p.granularity = q.granularity) (hp : plain_year p.year_of)
    (hq : q.year_of ≤ 9999) :
    (canonical_key p < canonical_key q ↔ p.index < q.index) ∧
      (canonical_key q < canonical_key p ↔ q.index < p.index) := by
  by_cases hsign : q.year_of < 0
  · have hlt := negative_lt_plain hsign hp
    have hindex := Period.index_lt_of_year_lt hg.symm (by have := hp.1; omega)
    exact ⟨iff_of_false (String.lt_asymm hlt) (by omega), iff_of_true hlt hindex⟩
  · have hplain : plain_year q.year_of := ⟨by omega, hq⟩
    exact ⟨lt_iff_of_lt hg (canonical_key_lt hg hp hplain) (canonical_key_lt hg.symm hplain hp),
      lt_iff_of_lt hg.symm (canonical_key_lt hg.symm hplain hp) (canonical_key_lt hg hp hplain)⟩

theorem has_key_of_plain_year (h : plain_year p.year_of) : HasKey p := by
  have hlow := h.1
  have hhigh := h.2
  cases p with
  | hour d h' hh =>
    have hyears : 0 ≤ d.year ∧ d.year ≤ 9999 := h
    exact representable_iff_year.mpr ⟨by omega, by omega⟩
  | day d =>
    have hyears : 0 ≤ d.year ∧ d.year ≤ 9999 := h
    exact representable_iff_year.mpr ⟨by omega, by omega⟩
  | week w =>
    have hyears : 0 ≤ w.year ∧ w.year ≤ 9999 := h
    exact ⟨by omega, by omega⟩
  | month m =>
    have hyears : 0 ≤ m.year ∧ m.year ≤ 9999 := h
    exact ⟨by omega, by omega⟩
  | year y =>
    have hyears : 0 ≤ y ∧ y ≤ 9999 := h
    exact ⟨by omega, by omega⟩

/-- The years -1 and -2 have keys where other negative years have. -/
theorem has_key_of_negative (hkey : HasKey p) (hp : p.year_of < 0)
    (hg : q.granularity = p.granularity) (hq : -2 ≤ q.year_of) (hq' : q.year_of < 0) :
    HasKey q := by
  cases q with
  | hour d h' hh =>
    have hyears : -2 ≤ d.year ∧ d.year < 0 := ⟨hq, hq'⟩
    exact representable_iff_year.mpr ⟨by omega, by omega⟩
  | day d =>
    have hyears : -2 ≤ d.year ∧ d.year < 0 := ⟨hq, hq'⟩
    exact representable_iff_year.mpr ⟨by omega, by omega⟩
  | week w =>
    have hyears : -2 ≤ w.year ∧ w.year < 0 := ⟨hq, hq'⟩
    exact ⟨by omega, by omega⟩
  | month m =>
    cases p with
    | month m' =>
      have hnot : m'.year < 0 := hp
      have hpos : 0 ≤ m'.year := hkey.1
      omega
    | _ => cases hg
  | year y =>
    have hyears : -2 ≤ y ∧ y < 0 := ⟨hq, hq'⟩
    exact ⟨by omega, by omega⟩

/-- There is a period of each granularity in every year. -/
theorem exists_period (granularity : TimeGranularity) (year : Int) :
    ∃ p : Period, p.granularity = granularity ∧ p.year_of = year := by
  have hdays : 1 ≤ Calendar.days_in_month year 1 := by
    have := days_in_month_pos year 1
    omega
  have hweeks : 1 ≤ weeks_in_year year := by
    have := (first_week_succ year).2.1
    omega
  let d : Date := ⟨⟨year, 1, by decide, by decide⟩, 1, by decide, hdays⟩
  cases granularity with
  | Hourly => exact ⟨.hour d 0 (by decide), rfl, rfl⟩
  | Daily => exact ⟨.day d, rfl, rfl⟩
  | Weekly => exact ⟨.week ⟨year, 1, by decide, hweeks⟩, rfl, rfl⟩
  | Monthly => exact ⟨.month d.toMonth, rfl, rfl⟩
  | Yearly => exact ⟨.year year, rfl, rfl⟩

section well_ordered
variable (doc : chrono.Exact date hour leap_hour) {granularity : TimeGranularity}
  {partition_key : String}
include doc

theorem canonical_format_ok (h : HasKey p) :
    validate_key_format chrono (canonical_key p) (.Time p.granularity) = .ok () :=
  validate_time_format_iff.mpr (is_canonical_key doc h)

/-- The canonical keys of the years without a sign are in order. -/
theorem well_ordered_of_plain_year (h : plain_year p.year_of) :
    WellOrdered chrono date hour ⟨.Time p.granularity, partition_key⟩ p.granularity
      (canonical_key p) := by
  have hkey := has_key_of_plain_year h
  have hvalid := canonical_format_ok doc hkey
  have hpden := denotes_canonical_key doc hkey
  intro q hq hqkey hpartner
  have hqvalid := canonical_format_ok doc hqkey
  rw [hq] at hqvalid
  have hqden := denotes_canonical_key doc hqkey
  have hyear : q.year_of ≤ 9999 := by
    rcases hpartner with hyear | hden
    · exact hyear
    · rw [denotes_period_unique doc hq hden hpden]
      exact h.2
  obtain ⟨hlt, hgt⟩ := canonical_lt_iff hq.symm h hyear
  exact ⟨(orders_by_time_iff doc hvalid hqvalid rfl hq hpden hqden).mpr hlt,
    (orders_by_time_iff doc hqvalid hvalid hq rfl hqden hpden).mpr hgt⟩

/-- A key that is not canonical is in order only because of what it denotes. -/
theorem exists_denoted_of_ne
    (hw : WellOrdered chrono date hour ⟨.Time granularity, partition_key⟩ granularity key)
    (hvalid : validate_key_format chrono key (.Time granularity) = .ok ())
    (hq : q.granularity = granularity) (hqkey : HasKey q)
    (hpartner : q.year_of ≤ 9999 ∨ DenotesPeriod chrono date hour key q)
    (hne : key ≠ canonical_key q) :
    ∃ p : Period, p.granularity = granularity ∧ DenotesPeriod chrono date hour key p ∧
      (key < canonical_key q ∧ p.index < q.index ∨ canonical_key q < key ∧ q.index < p.index) := by
  have hqvalid := canonical_format_ok doc hqkey
  rw [hq] at hqvalid
  have hqden := denotes_canonical_key doc hqkey
  obtain ⟨hbefore, hbehind⟩ := hw q hq hqkey hpartner
  by_cases hlt : key < canonical_key q
  · have hcode : validate_backfill_range chrono key (canonical_key q)
        ⟨.Time granularity, partition_key⟩ = .ok () :=
      (validate_backfill_range_eq_ok_iff hvalid hqvalid).mpr hlt
    obtain ⟨p, q', hp, hq', hpden, hqden', hbegins⟩ := hbefore.mp hcode
    have hsame := denotes_period_unique doc (hq'.trans hq.symm) hqden' hqden
    subst hsame
    exact ⟨p, hp, hpden, .inl ⟨hlt, (Period.begins_lt_iff (hp.trans hq.symm)).mp hbegins⟩⟩
  · have hgt : canonical_key q < key := by
      by_contra hnot
      exact hne (String.le_antisymm (String.not_lt.mp hnot) (String.not_lt.mp hlt))
    have hcode : validate_backfill_range chrono (canonical_key q) key
        ⟨.Time granularity, partition_key⟩ = .ok () :=
      (validate_backfill_range_eq_ok_iff hqvalid hvalid).mpr hgt
    obtain ⟨q', p, hq', hp, hqden', hpden, hbegins⟩ := hbehind.mp hcode
    have hsame := denotes_period_unique doc (hq'.trans hq.symm) hqden' hqden
    subst hsame
    exact ⟨p, hp, hpden, .inr ⟨hgt, (Period.begins_lt_iff (hq.trans hp.symm)).mp hbegins⟩⟩

/-- A canonical key with a sign is not in order with all of the others. -/
theorem plain_year_of_well_ordered (hkey : HasKey p)
    (hw : WellOrdered chrono date hour ⟨.Time p.granularity, partition_key⟩ p.granularity
      (canonical_key p)) : plain_year p.year_of := by
  have hvalid := canonical_format_ok doc hkey
  have hpden := denotes_canonical_key doc hkey
  -- a partner whose key is on the wrong side
  have hpartner : ∀ q : Period, q.granularity = p.granularity → HasKey q → q.year_of ≤ 9999 →
      q.year_of ≠ p.year_of →
      (canonical_key p < canonical_key q ∧ p.year_of < q.year_of) ∨
        (canonical_key q < canonical_key p ∧ q.year_of < p.year_of) := by
    intro q hq hqkey hyear hne
    have hkeys : canonical_key p ≠ canonical_key q := by
      intro heq
      have hqden := denotes_canonical_key doc hqkey
      rw [← heq] at hqden
      rw [denotes_period_unique doc hq hqden hpden] at hne
      exact hne rfl
    obtain ⟨p', hp', hpden', hside⟩ :=
      exists_denoted_of_ne doc hw hvalid hq hqkey (.inl hyear) hkeys
    have hsame := denotes_period_unique doc hp' hpden' hpden
    subst hsame
    rcases hside with ⟨hlt, hindex⟩ | ⟨hgt, hindex⟩
    · have hle := Period.year_of_mono hq.symm (Int.le_of_lt hindex)
      exact .inl ⟨hlt, by omega⟩
    · have hle := Period.year_of_mono hq (Int.le_of_lt hindex)
      exact .inr ⟨hgt, by omega⟩
  constructor
  · -- before the year 0: the years -1 and -2 are in the wrong order
    by_contra hnegative
    by_cases hlast : p.year_of = -1
    · obtain ⟨q, hq, hyear⟩ := exists_period p.granularity (-2)
      have hqkey := has_key_of_negative hkey (by omega) hq (by omega) (by omega)
      have hlt := negative_lt_negative hq.symm (by omega) (by omega)
        (show q.year_of < p.year_of by omega)
      rcases hpartner q hq hqkey (by omega) (by omega) with h | h
      · omega
      · exact String.lt_asymm hlt h.1
    · obtain ⟨q, hq, hyear⟩ := exists_period p.granularity (-1)
      have hqkey := has_key_of_negative hkey (by omega) hq (by omega) (by omega)
      have hlt := negative_lt_negative hq (by omega) (by omega)
        (show p.year_of < q.year_of by omega)
      rcases hpartner q hq hqkey (by omega) (by omega) with h | h
      · exact String.lt_asymm hlt h.1
      · omega
  · -- behind the year 9999: a plus sign comes before all digits
    by_contra habove
    obtain ⟨q, hq, hyear⟩ := exists_period p.granularity 2000
    have hplain : plain_year q.year_of := by
      rw [hyear]
      exact ⟨by decide, by decide⟩
    have hlt := above_lt_plain hkey (by omega) hplain
    rcases hpartner q hq (has_key_of_plain_year hplain) hplain.2 (by omega) with h | h
    · omega
    · exact String.lt_asymm hlt h.1

/-- Among the canonical keys, a key is in order if and only if it is one of them, for a year
    without a sign. -/
theorem well_ordered_iff
    (hvalid : validate_key_format chrono key (.Time granularity) = .ok ()) :
    WellOrdered chrono date hour ⟨.Time granularity, partition_key⟩ granularity key ↔
      ∃ p : Period, p.granularity = granularity ∧ plain_year p.year_of ∧
        key = canonical_key p := by
  constructor
  · intro hw
    -- something is denoted, or the key would be out of order with every other
    have hdenotes : ∃ p : Period, p.granularity = granularity ∧
        DenotesPeriod chrono date hour key p := by
      obtain ⟨q, hq, hyear⟩ := exists_period granularity 2000
      have hplain : plain_year q.year_of := by
        rw [hyear]
        exact ⟨by decide, by decide⟩
      have hqkey := has_key_of_plain_year hplain
      by_cases heq : key = canonical_key q
      · exact ⟨q, hq, heq ▸ denotes_canonical_key doc hqkey⟩
      · obtain ⟨p, hp, hpden, -⟩ :=
          exists_denoted_of_ne doc hw hvalid hq hqkey (.inl hplain.2) heq
        exact ⟨p, hp, hpden⟩
    obtain ⟨p, rfl, hpden⟩ := hdenotes
    have hpkey := has_key_of_denotes doc (validate_time_format_iff.mp hvalid) hpden
    -- and is denoted by the same text
    have heq : key = canonical_key p := by
      by_contra hne
      obtain ⟨p', hp', hpden', hside⟩ :=
        exists_denoted_of_ne doc hw hvalid rfl hpkey (.inr hpden) hne
      have hsame := denotes_period_unique doc hp' hpden' hpden
      subst hsame
      rcases hside with ⟨-, h⟩ | ⟨-, h⟩
      · exact Int.lt_irrefl _ h
      · exact Int.lt_irrefl _ h
    subst heq
    exact ⟨p, rfl, plain_year_of_well_ordered doc hpkey hw, rfl⟩
  · rintro ⟨p, rfl, hplain, rfl⟩
    exact well_ordered_of_plain_year doc hplain

end well_ordered

/-- **Range validation orders by time** what is written in one notation, with a year without a
    sign. -/
theorem ranges_by_time (doc : chrono.Exact date hour leap_hour) (granularity : TimeGranularity)
    (partition_key : String) :
    RangesByTime chrono date hour ⟨.Time granularity, partition_key⟩ granularity where
  canonical p q hp hq hpyear hqyear := by
    have hpkey := has_key_of_plain_year hpyear
    have hqkey := has_key_of_plain_year hqyear
    have hg := hp.trans hq.symm
    refine (orders_by_time_iff doc ?_ ?_ hp hq (denotes_canonical_key doc hpkey)
      (denotes_canonical_key doc hqkey)).mpr ?_
    · rw [← hp]
      exact canonical_format_ok doc hpkey
    · rw [← hq]
      exact canonical_format_ok doc hqkey
    · exact lt_iff_of_lt hg (canonical_key_lt hg hpyear hqyear)
        (canonical_key_lt hg.symm hqyear hpyear)
  alternative p q hp hq hpyear hqyear := by
    have hg := hp.trans hq.symm
    refine (orders_by_time_iff doc ?_ ?_ hp hq (denotes_alternative_key doc hpyear)
      (denotes_alternative_key doc hqyear)).mpr ?_
    · rw [← hp]
      exact validate_time_format_iff.mpr (is_alternative_key doc hpyear)
    · rw [← hq]
      exact validate_time_format_iff.mpr (is_alternative_key doc hqyear)
    · exact lt_iff_of_lt hg (alternative_key_lt hg hpyear hqyear)
        (alternative_key_lt hg.symm hqyear hpyear)
  others key hvalid := well_ordered_iff doc hvalid

theorem month_ranges_by_time : RangesByTime bounded_chrono RepresentableDate.date
    RepresentableTime.hours ⟨.Time .Monthly, "month"⟩ .Monthly :=
  ranges_by_time bounded_exact .Monthly "month"

/-- October of 2024 comes before the second month, which is not padded. -/
theorem october_before_february :
    ¬ ∀ (NaiveDate NaiveDateTime : Type) (chrono : Chrono NaiveDate NaiveDateTime)
      (date : NaiveDate → Date) (hour leap_hour : NaiveDateTime → Int),
      chrono.Exact date hour leap_hour →
      ∀ (granularity : TimeGranularity) (partition_key start_key end_key : String),
        validate_key_format chrono start_key (.Time granularity) = .ok () →
        validate_key_format chrono end_key (.Time granularity) = .ok () →
        OrdersByTime chrono date hour ⟨.Time granularity, partition_key⟩ granularity start_key
          end_key := by
  intro hall
  have hvalid : ∀ key : String, is_time_key bounded_chrono key .Monthly = true →
      validate_key_format bounded_chrono key (.Time .Monthly) = .ok () := fun key h =>
    validate_time_format_iff.mpr h
  have hstart := hvalid "2024-10" (by decide +kernel)
  have hend := hvalid "2024-2" (by decide +kernel)
  have horder := hall _ _ _ _ _ _ bounded_exact .Monthly "month" "2024-10" "2024-2" hstart hend
  let october : Month := ⟨2024, 10, by decide, by decide⟩
  let february : Month := ⟨2024, 2, by decide, by decide⟩
  have hoctober : DenotesPeriod bounded_chrono RepresentableDate.date RepresentableTime.hours
      "2024-10" (.month october) :=
    show parse_monthly_key "2024-10" = some (2024, 10) by decide +kernel
  have hfebruary : DenotesPeriod bounded_chrono RepresentableDate.date RepresentableTime.hours
      "2024-2" (.month february) :=
    show parse_monthly_key "2024-2" = some (2024, 2) by decide +kernel
  have hbefore := (@orders_by_time_iff _ _ _ _ _ _ (.month october) (.month february)
    month_partitions .Monthly _ _ bounded_exact hstart hend rfl rfl hoctober hfebruary).mp horder
  have hlt : october.index < february.index := hbefore.mp (by decide +kernel)
  exact absurd hlt (by decide)

end Servo
