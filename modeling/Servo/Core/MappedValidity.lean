import Servo.Core.KeyParsers
import Servo.Core.MappedKeys

/-! # The Validity of Mapped Keys

    Does a valid key of the downstream asset go to valid keys of the upstream
    asset? For a mapping that has been inferred it does where the mapper can
    read the key and write the result. A mapping that has been given explicitly
    is accepted by the order of the granularities, of which the mapper
    implements four pairs; the others leave the key as it is.
-/

namespace Servo

open Calendar

variable {NaiveDate NaiveDateTime : Type} (chrono : Chrono NaiveDate NaiveDateTime)
  (date : NaiveDate → Date) (hour leap_hour : NaiveDateTime → Int)

/-! ### The code -/

/-- `validate_range_key`. -/
def validate_range_key (key lower_bound upper_bound : String) : Except ValidationError Unit :=
  if lower_bound ≤ key ∧ key < upper_bound then .ok ()
  else .error (.InvalidKeyFormat key (.Range lower_bound upper_bound))

/-- `validate_key_format`. -/
def validate_key_format (key : String) : PartitionType → Except ValidationError Unit
  | .Time granularity => validate_time_key chrono key granularity
  | .Range lower_bound upper_bound => validate_range_key key lower_bound upper_bound
  -- Custom partitions skip format validation
  | .Custom _ => .ok ()

def is_finer_granularity (finer coarser : TimeGranularity) : Bool :=
  let granularity_order : TimeGranularity → Nat
    | .Hourly => 0
    | .Daily => 1
    | .Weekly => 2
    | .Monthly => 3
    | .Yearly => 4
  granularity_order finer < granularity_order coarser

/-- `PartitionMappingError`, as far as the check of a mapping produces it. -/
inductive CompatibilityError where
  | IncompatibleTypes (upstream downstream : PartitionType)
  | InvalidAggregation («from» «to» : TimeGranularity)
  deriving DecidableEq

/-- Both partitions have these granularities. -/
def expect_granularities (upstream downstream : PartitionType) (up down : TimeGranularity) :
    Except CompatibilityError Unit :=
  match upstream, downstream with
  | .Time up', .Time down' =>
    if up' ≠ up ∨ down' ≠ down then .error (.IncompatibleTypes upstream downstream) else .ok ()
  | _, _ => .error (.IncompatibleTypes upstream downstream)

/-- `validate_compatibility`, which is `PartitionMapper::validate`. -/
def PartitionMapping.validate_compatibility (mapping : PartitionMapping)
    (upstream downstream : PartitionConfig) : Except CompatibilityError Unit :=
  match mapping with
  | .Identity =>
    -- Identity requires same partition type
    if upstream.partition_type ≠ downstream.partition_type then
      .error (.IncompatibleTypes upstream.partition_type downstream.partition_type)
    else .ok ()
  | .TimeAggregation _ up down =>
    -- Validate upstream granularity is finer than downstream
    if !is_finer_granularity up down then .error (.InvalidAggregation up down)
    else expect_granularities upstream.partition_type downstream.partition_type up down
  | .TimeWindow _ granularity | .TimeOffset _ granularity =>
    -- Both assets should have the same time granularity
    expect_granularities upstream.partition_type downstream.partition_type granularity granularity
  -- Custom mappings skip validation - user is responsible
  | .Custom _ => .ok ()

/-- `ValidationError`, as far as the check of a dependency produces it. -/
inductive DependencyError where
  | MappingInferenceError (error : CompatibilityError)
  deriving DecidableEq

/-- `validate_dependency_with_mapping`. -/
def validate_dependency_with_mapping (upstream downstream : PartitionConfig)
    (mapping : PartitionMapping) : Except DependencyError Unit :=
  (mapping.validate_compatibility upstream downstream).mapError .MappingInferenceError

/-! ### Keys that are mapped to valid ones -/

/-- The mapping does not panic, and all keys that it returns are valid. -/
def MapsToValid (mapping : PartitionMapping) (upstream : PartitionType) (key : String) : Prop :=
  ∃ keys, mapping.map_partition chrono key = some keys ∧
    ∀ k ∈ keys, validate_key_format chrono k upstream = .ok ()

/-- The week whose days are looked for can be read and written. -/
def WeekInCalendar (key : String) : Prop :=
  ("-W".toList <:+: key.toList →
      ∃ w, NamesWeek key w ∧ first_day ≤ monday w.index ∧ monday w.index + 6 ≤ last_day) ∧
    (¬ "-W".toList <:+: key.toList →
      ∀ x ∈ parse_daily_key chrono key, (date x).day_number + 6 ≤ last_day)

/-- The keys that an inferred mapping takes to valid keys. -/
def MapsRightly (upstream downstream : PartitionType) (key : String) : Prop :=
  match upstream, downstream with
  | .Time .Daily, .Time .Weekly => WeekInCalendar chrono date key
  | .Time .Daily, .Time .Monthly =>
    ∀ month ∈ parse_monthly_key key, -262143 ≤ month.1 ∧ month.1 ≤ 262142
  | .Time .Monthly, .Time .Yearly => ∀ year ∈ parse_i32 key, 0 ≤ year
  | .Range lower_bound upper_bound, .Range _ _ => lower_bound ≤ key ∧ key < upper_bound
  | _, _ => True

/-- The aggregations that the mapper implements, and the mappings that are no aggregations. -/
def Implemented : PartitionMapping → Prop
  | .TimeAggregation _ .Daily .Weekly | .TimeAggregation _ .Daily .Monthly
  | .TimeAggregation _ .Hourly .Daily | .TimeAggregation _ .Monthly .Yearly => True
  | .TimeAggregation _ _ _ => False
  | _ => True

variable {chrono date hour leap_hour}

theorem validate_time_format_iff {key : String} {granularity : TimeGranularity} :
    validate_key_format chrono key (.Time granularity) = .ok () ↔
      is_time_key chrono key granularity = true := validate_time_key_eq_ok_iff chrono

theorem validate_range_format_iff {key lower_bound upper_bound : String} :
    validate_key_format chrono key (.Range lower_bound upper_bound) = .ok () ↔
      lower_bound ≤ key ∧ key < upper_bound := by
  show (if _ then _ else _) = _ ↔ _
  by_cases h : lower_bound ≤ key ∧ key < upper_bound
  · exact iff_of_true (if_pos h) h
  · rw [if_neg h]
    exact iff_of_false nofun h

/-- A key that is left as it is. -/
theorem maps_to_valid_of_identity {mapping : PartitionMapping} {upstream : PartitionType}
    {key : String} (h : mapping.map_partition chrono key = some [key]) :
    MapsToValid chrono mapping upstream key ↔ validate_key_format chrono key upstream = .ok () := by
  unfold MapsToValid
  rw [h]
  simp

/-! ### Keys of years and months -/

/-- A key of a month, with the year as it is printed. -/
theorem is_printed_month_iff {year : Int} (hyear : year < 2 ^ 31) {m : Nat} (hpos : 1 ≤ m)
    (hle : m ≤ 12) :
    is_time_key chrono (toString year ++ "-" ++ Text.pad 2 m) .Monthly = true ↔ 0 ≤ year := by
  rw [is_monthly_key_iff]
  by_cases h : 0 ≤ year
  · refine iff_of_true ?_ h
    have hparse : parse_i32 (Text.pad 0 year.toNat) = some (year.toNat : Int) :=
      Text.parse_signed_pad (by omega)
    rw [toString_year h, ← Text.pad_zero, parse_monthly_key, split_pad _ rfl (by decide)]
    simp only [hparse, parse_u32_pad (show m ≤ 9999 by omega), if_pos (And.intro hpos hle)]
    exact ⟨rfl, rfl⟩
  · refine iff_of_false ?_ h
    rintro ⟨hsome, -⟩
    -- the part in front of the sign is empty
    have htext : toString year ++ "-" ++ Text.pad 2 m =
        "-" ++ ((-year).toNat.repr ++ "-" ++ Text.pad 2 m) := by
      rw [Int.toString_eq_repr, Int.repr_eq_if, if_neg h]
      simp [String.append_assoc]
    have hsplit : split (toString year ++ "-" ++ Text.pad 2 m) "-" =
        "" :: split ((-year).toNat.repr ++ "-" ++ Text.pad 2 m) "-" := by
      rw [htext, split, String.toList_append]
      have hcut := @Text.split_append_sep '-' [] List.not_mem_nil
        ((-year).toNat.repr ++ "-" ++ Text.pad 2 m).toList
      show (Text.split ['-'] ([] ++ '-' ::
        ((-year).toNat.repr ++ "-" ++ Text.pad 2 m).toList)).map String.ofList = _
      rw [hcut]
      rfl
    rw [parse_monthly_key, hsplit] at hsome
    have hempty : parse_i32 "" = none := by decide +kernel
    split at hsome
    · next heq =>
      obtain ⟨rfl, -⟩ := List.cons.inj heq
      simp only [hempty] at hsome
      cases hsome
    · cases hsome

/-! ### Keys of days and hours -/

namespace Chrono.Exact

variable (doc : chrono.Exact date hour leap_hour)
include doc

theorem is_day_key {n : Int} (h : representable n) :
    is_time_key chrono (Period.nth .Daily n).key .Daily = true := by
  obtain ⟨x, rfl⟩ := doc.exists_day h
  rw [nth_daily, day_of_number_eq]
  exact is_daily_key doc.documented x

theorem is_hour_key {d : Date} {h : Nat} (hd : representable d.day_number) (hh : h < 24) :
    is_time_key chrono (hour_key d h) .Hourly = true := by
  obtain ⟨time, htime, -⟩ := doc.parse_hour d h hd hh
  simp only [is_time_key, htime, Option.isSome_some, Bool.true_or]

theorem is_nth_hour_key {n : Int} (h : representable (n / 24)) :
    is_time_key chrono (Period.nth .Hourly n).key .Hourly = true := by
  rw [nth_hourly]
  exact doc.is_hour_key (by rwa [day_number_day_of_number]) (by omega)

/-- Consecutive days from the first to the last representable one. -/
theorem days_from_valid {n : Int} {count : Nat} (hfirst : first_day ≤ n)
    (hlast : n + (count - 1 : Nat) ≤ last_day) :
    ∀ key ∈ days_from n count, is_time_key chrono key .Daily = true := by
  intro key hkey
  obtain ⟨i, hi, rfl⟩ := List.mem_map.mp hkey
  have hlt := List.mem_range.mp hi
  exact doc.is_day_key ⟨by omega, by omega⟩

/-- The days of a month. -/
theorem month_days_valid {m : Month} (hlow : -262143 ≤ m.year) (hhigh : m.year ≤ 262142) :
    ∀ key ∈ days_from (month_start m.index) (Servo.days_in_month m.year m.month),
      is_time_key chrono key .Daily = true := by
  have hdays := days_in_month_pos m.year m.month
  let first : Date := ⟨m, 1, le_refl 1, by omega⟩
  let last : Date := ⟨m, Calendar.days_in_month m.year m.month, by omega, le_refl _⟩
  have hfirst : representable first.day_number := representable_iff_year.mpr ⟨hlow, hhigh⟩
  have hlast : representable last.day_number := representable_iff_year.mpr ⟨hlow, hhigh⟩
  have hstart : first.day_number = month_start m.index := Int.add_zero _
  have hend : last.day_number =
      month_start m.index + (Calendar.days_in_month m.year m.month - 1 : Nat) := rfl
  rw [hstart] at hfirst
  rw [hend] at hlast
  rw [days_in_month_eq]
  exact doc.days_from_valid hfirst.1 hlast.2

/-- The hours of a day. -/
theorem day_hours_valid (x : NaiveDate) :
    ∀ key ∈ (List.range 24).map fun h => hour_key (date x) h,
      is_time_key chrono key .Hourly = true := by
  intro key hkey
  obtain ⟨h, hh, rfl⟩ := List.mem_map.mp hkey
  exact doc.is_hour_key (doc.date_representable x) (List.mem_range.mp hh)

theorem maps_to_valid_iff {mapping : PartitionMapping} {upstream : PartitionType} {key : String} :
    MapsToValid chrono mapping upstream key ↔
      StaysInCalendar chrono date hour leap_hour mapping key ∧
        ∀ k ∈ mapped_keys chrono date hour leap_hour mapping key,
          validate_key_format chrono k upstream = .ok () := by
  unfold MapsToValid
  simp only [doc.map_partition_eq_some_iff]
  constructor
  · rintro ⟨keys, ⟨hstays, rfl⟩, hall⟩
    exact ⟨hstays, hall⟩
  · intro ⟨hstays, hall⟩
    exact ⟨_, ⟨hstays, rfl⟩, hall⟩

end Chrono.Exact

/-- The months of a year. -/
theorem year_months_valid_iff {year : Int} (hyear : year < 2 ^ 31) :
    (∀ key ∈ (List.range 12).map fun m => toString year ++ "-" ++ Text.pad 2 (m + 1),
      is_time_key chrono key .Monthly = true) ↔ 0 ≤ year := by
  constructor
  · intro h
    have hfirst := h (toString year ++ "-" ++ Text.pad 2 (0 + 1))
      (List.mem_map_of_mem (List.mem_range.mpr (by decide)))
    exact (is_printed_month_iff hyear (by decide) (by decide)).mp hfirst
  · intro h key hkey
    obtain ⟨m, hm, rfl⟩ := List.mem_map.mp hkey
    have hlt := List.mem_range.mp hm
    exact (is_printed_month_iff hyear (by omega) (by omega)).mpr h

/-! ### Inferred mappings -/

section inferred
variable (doc : chrono.Exact date hour leap_hour) {factor : Nat} {key : String}
include doc

theorem weekly_maps_to_valid (hkey : is_time_key chrono key .Weekly = true) :
    MapsToValid chrono (.TimeAggregation factor .Daily .Weekly) (.Time .Daily) key ↔
      WeekInCalendar chrono date key := by
  rw [doc.maps_to_valid_iff]
  simp only [StaysInCalendar, mapped_keys, validate_time_format_iff]
  have hread : ∀ x, parse_weekly_key chrono key = some x →
      ((∀ monday ∈ parse_weekly_key chrono key, (date monday).day_number + 6 ≤ last_day) ∧
        (∀ k ∈ ((parse_weekly_key chrono key).map fun monday =>
          days_from (date monday).day_number 7).getD [key],
            is_time_key chrono k .Daily = true) ↔ (date x).day_number + 6 ≤ last_day) := by
    intro x hx
    rw [hx, Option.map_some, Option.getD_some]
    constructor
    · intro h
      exact h.1 x rfl
    · intro h
      refine ⟨?_, doc.days_from_valid (doc.date_representable x).1 h⟩
      rintro _ ⟨⟩
      exact h
  by_cases hiso : "-W".toList <:+: key.toList
  · -- the week must exist: its key is no date
    have hinvalid : is_time_key chrono key .Daily = false := by
      have hnone : chrono.parse_date key "%Y-%m-%d" = none := doc.parse_date_of_iso hiso
      simp only [is_time_key, hnone, Option.isSome_none]
    cases hweek : parse_weekly_key chrono key with
    | none =>
      refine iff_of_false ?_ ?_
      · rintro ⟨-, hall⟩
        rw [Option.map_none, Option.getD_none] at hall
        rw [hall key List.mem_cons_self] at hinvalid
        cases hinvalid
      · rintro ⟨hread, -⟩
        obtain ⟨w, hnames, hlow, hhigh⟩ := hread hiso
        have hsome := (doc.parse_weekly_key_isSome_of_iso hiso).mpr
          ⟨w, hnames, hlow, by omega⟩
        rw [hweek] at hsome
        cases hsome
    | some x =>
      rw [← hweek, hread x hweek]
      obtain ⟨w, hnames, hx⟩ := (doc.parse_weekly_key_of_iso hiso).mp hweek
      have hrange := doc.date_representable x
      constructor
      · intro h
        exact ⟨fun _ => ⟨w, hnames, hx ▸ hrange.1, hx ▸ h⟩, fun hdate => absurd hiso hdate⟩
      · rintro ⟨hcalendar, -⟩
        obtain ⟨w', hnames', hlow, hhigh⟩ := hcalendar hiso
        obtain ⟨x', hx'⟩ := doc.exists_day (n := monday w'.index) ⟨hlow, by omega⟩
        have hsame := (doc.parse_weekly_key_of_iso hiso).mpr ⟨w', hnames', hx'⟩
        rw [hweek] at hsame
        cases hsame
        omega
  · -- the key is a date, as it is valid
    have hdaily : parse_weekly_key chrono key = parse_daily_key chrono key :=
      parse_weekly_key_of_date hiso
    have hsome : (chrono.parse_date key "%Y-%m-%d").isSome = true := by
      simpa only [is_time_key, hiso, decide_false, Bool.false_and, Bool.false_or] using hkey
    obtain ⟨x, hx⟩ := Option.isSome_iff_exists.mp hsome
    rw [hread x (hdaily.trans hx)]
    constructor
    · intro h
      refine ⟨fun h' => absurd h' hiso, fun _ y hy => ?_⟩
      have heq : some x = some y := hx.symm.trans hy
      cases heq
      exact h
    · intro h
      exact h.2 hiso x hx

theorem monthly_maps_to_valid (hkey : is_time_key chrono key .Monthly = true) :
    MapsToValid chrono (.TimeAggregation factor .Daily .Monthly) (.Time .Daily) key ↔
      ∀ month ∈ parse_monthly_key key, -262143 ≤ month.1 ∧ month.1 ≤ 262142 := by
  rw [doc.maps_to_valid_iff]
  simp only [StaysInCalendar, mapped_keys, validate_time_format_iff]
  refine and_iff_left_of_imp fun hrange => ?_
  obtain ⟨month, hmonth⟩ := Option.isSome_iff_exists.mp (is_monthly_key_iff.mp hkey).1
  have hbounds := parse_monthly_key_bounds hmonth
  have hyear := hrange month hmonth
  rw [hmonth, Option.map_some, Option.getD_some]
  exact doc.month_days_valid (m := ⟨month.1, month.2, hbounds.1, hbounds.2⟩) hyear.1 hyear.2

theorem daily_maps_to_valid (hkey : is_time_key chrono key .Daily = true) :
    MapsToValid chrono (.TimeAggregation factor .Hourly .Daily) (.Time .Hourly) key := by
  rw [doc.maps_to_valid_iff]
  simp only [StaysInCalendar, mapped_keys, validate_time_format_iff]
  refine ⟨trivial, ?_⟩
  obtain ⟨x, hx⟩ := Option.isSome_iff_exists.mp hkey
  rw [show parse_daily_key chrono key = some x from hx, Option.map_some, Option.getD_some]
  exact doc.day_hours_valid x

theorem yearly_maps_to_valid (hkey : is_time_key chrono key .Yearly = true) :
    MapsToValid chrono (.TimeAggregation factor .Monthly .Yearly) (.Time .Monthly) key ↔
      ∀ year ∈ parse_i32 key, 0 ≤ year := by
  rw [doc.maps_to_valid_iff]
  simp only [StaysInCalendar, mapped_keys, validate_time_format_iff, true_and]
  obtain ⟨year, hyear⟩ := Option.isSome_iff_exists.mp (Bool.and_eq_true_iff.mp hkey).1
  have hlt : year < 2 ^ 31 := Text.parse_signed_lt (by decide) hyear
  rw [hyear, Option.map_some, Option.getD_some, year_months_valid_iff hlt]
  simp

/-- **Valid keys go to valid keys** exactly where the key can be read and the result written. -/
theorem maps_rightly_iff {upstream downstream : PartitionType} {mapping : PartitionMapping}
    (hmap : infer_mapping upstream downstream = .ok mapping)
    (hkey : validate_key_format chrono key downstream = .ok ()) :
    MapsToValid chrono mapping upstream key ↔ MapsRightly chrono date upstream downstream key := by
  cases upstream with
  | Time up =>
    cases downstream with
    | Time down =>
      have hvalid := validate_time_format_iff.mp hkey
      rcases infer_mapping_cases hmap with ⟨rfl, rfl⟩ | ⟨rfl, rfl, rfl⟩ | ⟨rfl, rfl, rfl⟩ |
        ⟨rfl, rfl, rfl⟩ | ⟨rfl, rfl, rfl⟩
      · rw [maps_to_valid_of_identity rfl]
        refine iff_of_true hkey ?_
        cases up <;> trivial
      · exact weekly_maps_to_valid doc hvalid
      · exact monthly_maps_to_valid doc hvalid
      · exact iff_of_true (daily_maps_to_valid doc hvalid) trivial
      · exact yearly_maps_to_valid doc hvalid
    | Custom expression => cases up <;> cases hmap
    | Range lower_bound upper_bound => cases up <;> cases hmap
  | Custom expression =>
    cases downstream with
    | Custom expression' =>
      cases hmap
      rw [maps_to_valid_of_identity rfl]
      exact iff_of_true rfl trivial
    | Time down => cases down <;> cases hmap
    | Range lower_bound upper_bound => cases hmap
  | Range lower_bound upper_bound =>
    cases downstream with
    | Range lower_bound' upper_bound' =>
      cases hmap
      rw [maps_to_valid_of_identity rfl]
      exact validate_range_format_iff
    | Time down => cases down <;> cases hmap
    | Custom expression => cases hmap

end inferred

/-- The months of 2024 are valid. -/
theorem year_maps_rightly :
    MapsToValid bounded_chrono (.TimeAggregation 12 .Monthly .Yearly) (.Time .Monthly) "2024" := by
  have hkey : validate_key_format bounded_chrono "2024" (.Time .Yearly) = .ok () :=
    validate_time_format_iff.mpr (by decide +kernel)
  have hmap : infer_mapping (.Time .Monthly) (.Time .Yearly) =
      .ok (.TimeAggregation 12 .Monthly .Yearly) := rfl
  refine (maps_rightly_iff bounded_exact hmap hkey).mpr ?_
  show ∀ year ∈ parse_i32 "2024", 0 ≤ year
  rw [show parse_i32 "2024" = some 2024 by decide +kernel]
  rintro _ ⟨⟩
  decide

/-- "-123" is a valid year, and "-123-01" is not a valid month. -/
theorem negative_year_maps_wrongly :
    ¬ ∀ (NaiveDate NaiveDateTime : Type) (chrono : Chrono NaiveDate NaiveDateTime)
      (date : NaiveDate → Date) (hour leap_hour : NaiveDateTime → Int),
      chrono.Exact date hour leap_hour →
      ∀ (upstream downstream : PartitionType) (mapping : PartitionMapping),
        infer_mapping upstream downstream = .ok mapping →
        ∀ key : String, validate_key_format chrono key downstream = .ok () →
          MapsToValid chrono mapping upstream key := by
  intro hall
  have hkey : validate_key_format bounded_chrono "-123" (.Time .Yearly) = .ok () :=
    validate_time_format_iff.mpr (by decide +kernel)
  obtain ⟨keys, hkeys, hvalid⟩ := hall _ _ _ _ _ _ bounded_exact (.Time .Monthly) (.Time .Yearly)
    _ rfl "-123" hkey
  have hyear : parse_i32 "-123" = some (-123) := by decide +kernel
  simp only [PartitionMapping.map_partition, map_time_aggregation, hyear, Option.some.injEq]
    at hkeys
  have hfirst := hvalid (toString (-123 : Int) ++ "-" ++ Text.pad 2 (0 + 1))
    (hkeys ▸ List.mem_map_of_mem (List.mem_range.mpr (by decide)))
  rw [validate_time_format_iff, is_printed_month_iff (by decide) (by decide) (by decide)] at hfirst
  exact absurd hfirst (by decide)

/-! ### Explicit mappings -/

section explicit
variable (doc : chrono.Exact date hour leap_hour)

theorem expect_granularities_eq_ok {upstream downstream : PartitionType}
    {up down : TimeGranularity} (h : expect_granularities upstream downstream up down = .ok ()) :
    upstream = .Time up ∧ downstream = .Time down := by
  unfold expect_granularities at h
  split at h
  · split at h
    · cases h
    · next hsame => simpa using hsame
  · cases h

theorem validate_dependency_with_mapping_eq_ok {upstream downstream : PartitionConfig}
    {mapping : PartitionMapping}
    (h : validate_dependency_with_mapping upstream downstream mapping = .ok ()) :
    mapping.validate_compatibility upstream downstream = .ok () := by
  unfold validate_dependency_with_mapping at h
  cases hvalid : mapping.validate_compatibility upstream downstream with
  | error e =>
    rw [hvalid] at h
    cases h
  | ok _ => rfl

theorem notMem_year_text {y : Int} (h : 0 ≤ y) (h' : y ≤ 9999) {c : Char}
    (hc : c.isDigit = false) : c ∉ (year_text y).toList := by
  rw [year_text_of_digits h h']
  exact Text.notMem_pad hc

/-- The keys of weeks, months and years have no colon. -/
theorem no_colon {p : Period} (hhour : p.granularity ≠ .Hourly) (hday : p.granularity ≠ .Daily)
    (h : 0 ≤ p.year_of) (h' : p.year_of ≤ 9999) : ':' ∉ p.key.toList := by
  have hpad : ∀ width n, ':' ∉ (Text.pad width n).toList := fun _ _ => Text.notMem_pad (by decide)
  cases p with
  | hour d hour hour_lt => exact absurd rfl hhour
  | day d => exact absurd rfl hday
  | week w =>
    have hyear : ':' ∉ (year_text w.year).toList := notMem_year_text h h' (by decide)
    show ':' ∉ (year_text w.year ++ "-W" ++ Text.pad 2 w.week).toList
    simp [hpad, hyear]
  | month m =>
    have hyear : ':' ∉ (year_text m.year).toList := notMem_year_text h h' (by decide)
    show ':' ∉ (year_text m.year ++ "-" ++ Text.pad 2 m.month).toList
    simp [hpad, hyear]
  | year y => exact notMem_year_text (y := y) h h' (by decide)

/-- The keys of months and years have no `W`, and too few hyphens for a date. -/
theorem no_week_or_date {p : Period} (hp : p.granularity = .Monthly ∨ p.granularity = .Yearly)
    (h : 0 ≤ p.year_of) (h' : p.year_of ≤ 9999) :
    'W' ∉ p.key.toList ∧ p.key.toList.count '-' < 2 := by
  have hpad : ∀ width n, 'W' ∉ (Text.pad width n).toList := fun _ _ => Text.notMem_pad (by decide)
  have hcount : ∀ width n, (Text.pad width n).toList.count '-' = 0 := fun _ _ =>
    List.count_eq_zero.mpr (Text.notMem_pad (by decide))
  cases p with
  | month m =>
    show 'W' ∉ (year_text m.year ++ "-" ++ Text.pad 2 m.month).toList ∧
      (year_text m.year ++ "-" ++ Text.pad 2 m.month).toList.count '-' < 2
    have hyear : 'W' ∉ (year_text m.year).toList := notMem_year_text h h' (by decide)
    have hzero : (year_text m.year).toList.count '-' = 0 :=
      List.count_eq_zero.mpr (notMem_year_text h h' (by decide))
    simp [hpad, hyear, hzero, List.count_append, hcount]
  | year y =>
    refine ⟨notMem_year_text (y := y) h h' (by decide), ?_⟩
    have hzero : (year_text y).toList.count '-' = 0 :=
      List.count_eq_zero.mpr (notMem_year_text h h' (by decide))
    show (year_text y).toList.count '-' < 2
    omega
  | _ => rcases hp with hp | hp <;> cases hp

/-- The week of a canonical key can be read and written. -/
theorem week_in_calendar {w : Week} (h : 0 ≤ w.year) (h' : w.year ≤ 9999) :
    WeekInCalendar chrono date (Period.week w).key := by
  have hnames : NamesWeek (Period.week w).key w :=
    parse_iso_week_eq_some_iff.mp (parse_week_key h h')
  have hiso : "-W".toList <:+: (Period.week w).key.toList := by
    show _ <:+: (year_text w.year ++ "-W" ++ Text.pad 2 w.week).toList
    rw [String.toList_append, String.toList_append]
    exact ⟨_, _, rfl⟩
  have hbounds := w.monday_bounds
  have hroom := room_for_year h h'
  have hfirst : first_day ≤ days_before_year (-2) := by decide
  have hlast : days_before_year 10002 ≤ last_day := by decide
  exact ⟨fun _ => ⟨w, hnames, by omega, by omega⟩, fun hno => absurd hiso hno⟩

include doc

/-- Months and years are neither days nor weeks. -/
theorem month_is_no_day {p : Period} (hp : p.granularity = .Monthly ∨ p.granularity = .Yearly)
    (h : 0 ≤ p.year_of) (h' : p.year_of ≤ 9999) :
    is_time_key chrono p.key .Daily = false ∧ is_time_key chrono p.key .Weekly = false := by
  obtain ⟨hweek, hcount⟩ := no_week_or_date hp h h'
  have hdate : (chrono.parse_date p.key "%Y-%m-%d").isSome = false := by
    rw [Bool.eq_false_iff]
    intro hsome
    have := (doc.parse_date_chars _ hsome).2
    omega
  have hiso : ¬ "-W".toList <:+: p.key.toList := fun hiso =>
    hweek (hiso.subset (by decide : 'W' ∈ "-W".toList))
  simp only [is_time_key, hdate, hiso, decide_false, Bool.false_and, Bool.or_self, and_self]

/-- An aggregation that is not implemented leaves the key, which is not one of the finer
    granularity. -/
theorem unsupported_is_invalid {up : TimeGranularity} {p : Period}
    (hfiner : is_finer_granularity up p.granularity = true) {factor : Nat}
    (hnot : ¬ Implemented (.TimeAggregation factor up p.granularity)) (h : 0 ≤ p.year_of)
    (h' : p.year_of ≤ 9999) : is_time_key chrono p.key up = false := by
  have hlater : up = .Hourly → p.granularity ≠ .Daily → is_time_key chrono p.key up = false := by
    rintro rfl hday
    have hhour : p.granularity ≠ .Hourly := fun heq => by
      rw [heq] at hfiner
      cases hfiner
    exact not_hourly_key doc.documented (no_colon hhour hday h h')
  cases hp : p.granularity with
  | Hourly =>
    rw [hp] at hfiner
    cases up <;> cases hfiner
  | Daily =>
    rw [hp] at hfiner hnot
    cases up with
    | Hourly => exact absurd trivial hnot
    | _ => cases hfiner
  | Weekly =>
    rw [hp] at hfiner hnot
    cases up with
    | Hourly => exact hlater rfl (by rw [hp]; nofun)
    | Daily => exact absurd trivial hnot
    | _ => cases hfiner
  | Monthly =>
    have hinvalid := month_is_no_day doc (.inl hp) h h'
    rw [hp] at hfiner hnot
    cases up with
    | Hourly => exact hlater rfl (by rw [hp]; nofun)
    | Daily => exact absurd trivial hnot
    | Weekly => exact hinvalid.2
    | _ => cases hfiner
  | Yearly =>
    have hinvalid := month_is_no_day doc (.inr hp) h h'
    rw [hp] at hfiner hnot
    cases up with
    | Hourly => exact hlater rfl (by rw [hp]; nofun)
    | Daily => exact hinvalid.1
    | Weekly => exact hinvalid.2
    | Monthly => exact absurd trivial hnot
    | Yearly => cases hfiner

/-- The aggregations that are implemented take canonical keys to valid keys. -/
theorem implemented_maps_to_valid {factor : Nat} {up : TimeGranularity} {p : Period}
    (himplemented : Implemented (.TimeAggregation factor up p.granularity)) (h : 0 ≤ p.year_of)
    (h' : p.year_of ≤ 9999) :
    MapsToValid chrono (.TimeAggregation factor up p.granularity) (.Time up) p.key := by
  have hvalid := is_time_key_of_period doc.documented h h'
  cases p with
  | hour d hour hour_lt => cases up <;> cases himplemented
  | day d =>
    cases up with
    | Hourly => exact daily_maps_to_valid doc hvalid
    | _ => cases himplemented
  | week w =>
    cases up with
    | Daily => exact (weekly_maps_to_valid doc hvalid).mpr (week_in_calendar h h')
    | _ => cases himplemented
  | month m =>
    have hlow : (0 : Int) ≤ m.year := h
    have hhigh : m.year ≤ (9999 : Int) := h'
    cases up with
    | Daily =>
      refine (monthly_maps_to_valid doc hvalid).mpr fun month hmonth => ?_
      cases (parse_month_key hlow hhigh).symm.trans hmonth
      exact ⟨by omega, by omega⟩
    | _ => cases himplemented
  | year y =>
    cases up with
    | Monthly =>
      refine (yearly_maps_to_valid doc hvalid).mpr fun year hyear => ?_
      cases (parse_year_key (y := y) h h').symm.trans hyear
      exact h
    | _ => cases himplemented

theorem aggregation_maps_iff {factor : Nat} {up : TimeGranularity} {p : Period}
    (hfiner : is_finer_granularity up p.granularity = true) (h : 0 ≤ p.year_of)
    (h' : p.year_of ≤ 9999) :
    MapsToValid chrono (.TimeAggregation factor up p.granularity) (.Time up) p.key ↔
      Implemented (.TimeAggregation factor up p.granularity) ∧
        StaysInCalendar chrono date hour leap_hour (.TimeAggregation factor up p.granularity)
          p.key := by
  by_cases himplemented : Implemented (.TimeAggregation factor up p.granularity)
  · have hmaps := implemented_maps_to_valid doc himplemented h h'
    exact iff_of_true hmaps ⟨himplemented, (doc.maps_to_valid_iff.mp hmaps).1⟩
  · refine iff_of_false ?_ fun hboth => himplemented hboth.1
    have hinvalid := unsupported_is_invalid doc hfiner himplemented h h'
    have hidentity : PartitionMapping.map_partition chrono
        (.TimeAggregation factor up p.granularity) p.key = some [p.key] := by
      generalize p.granularity = down at himplemented
      cases up <;> cases down <;> first | rfl | exact absurd trivial himplemented
    rw [maps_to_valid_of_identity hidentity, validate_time_format_iff, hinvalid]
    exact Bool.false_ne_true

/-- Windows and offsets that can be written are valid. -/
theorem window_maps_iff {mapping : PartitionMapping} {key : String} {granularity : TimeGranularity}
    (hmapping : (∃ size, mapping = .TimeWindow size granularity) ∨
      ∃ offset, mapping = .TimeOffset offset granularity)
    (hkey : is_time_key chrono key granularity = true) :
    MapsToValid chrono mapping (.Time granularity) key ↔
      StaysInCalendar chrono date hour leap_hour mapping key := by
  rw [doc.maps_to_valid_iff]
  refine and_iff_left_of_imp fun hstays => ?_
  simp only [validate_time_format_iff]
  have hidentity : ∀ k ∈ [key], is_time_key chrono k granularity = true := by
    simpa using hkey
  rcases hmapping with ⟨size, rfl⟩ | ⟨offset, rfl⟩
  · cases granularity with
    | Daily =>
      simp only [mapped_keys]
      cases hparse : parse_daily_key chrono key with
      | none => exact hidentity
      | some x =>
        have hfar := hstays x hparse
        have hx := doc.date_representable x
        rw [Option.map_some, Option.getD_some]
        intro k hk
        obtain ⟨i, hi, rfl⟩ := List.mem_map.mp hk
        have hlt := List.mem_range.mp hi
        exact doc.is_day_key ⟨by omega, by have := hx.2; omega⟩
    | Hourly =>
      simp only [mapped_keys]
      cases hparse : parse_hourly_key chrono key with
      | none => exact hidentity
      | some time =>
        have hfar := hstays time hparse
        have htime := doc.hour_representable time
        have hleap := doc.leap_hour_le time
        unfold representable at htime
        rw [Option.map_some, Option.getD_some]
        intro k hk
        obtain ⟨i, hi, rfl⟩ := List.mem_map.mp hk
        have hlt := List.mem_range.mp hi
        refine doc.is_nth_hour_key ?_
        unfold counted_hour representable
        split <;> omega
    | _ => exact hidentity
  · cases granularity with
    | Daily =>
      simp only [mapped_keys]
      cases hparse : parse_daily_key chrono key with
      | none => exact hidentity
      | some x =>
        have hoffset := hstays x hparse
        simpa using doc.is_day_key hoffset
    | Hourly =>
      simp only [mapped_keys]
      cases hparse : parse_hourly_key chrono key with
      | none => exact hidentity
      | some time =>
        have hoffset := hstays time hparse
        simpa using doc.is_nth_hour_key hoffset
    | _ => exact hidentity

/-- **An accepted mapping really maps** if and only if it is implemented and stays in the
    calendar. -/
theorem accepted_maps_iff {upstream downstream : PartitionConfig} {mapping : PartitionMapping}
    (haccepted : validate_dependency_with_mapping upstream downstream mapping = .ok ())
    (hcustom : ∀ expression, mapping ≠ .Custom expression) {p : Period}
    (hp : downstream.partition_type = .Time p.granularity) (h : 0 ≤ p.year_of)
    (h' : p.year_of ≤ 9999) :
    MapsToValid chrono mapping upstream.partition_type p.key ↔
      Implemented mapping ∧ StaysInCalendar chrono date hour leap_hour mapping p.key := by
  have hvalid := is_time_key_of_period doc.documented h h'
  have hcompatible := validate_dependency_with_mapping_eq_ok haccepted
  cases mapping with
  | Identity =>
    have hsame : upstream.partition_type = downstream.partition_type := by
      by_contra hne
      rw [PartitionMapping.validate_compatibility, if_pos hne] at hcompatible
      cases hcompatible
    rw [maps_to_valid_of_identity rfl, hsame, hp, validate_time_format_iff]
    exact iff_of_true hvalid ⟨trivial, trivial⟩
  | TimeAggregation factor up down =>
    have hfiner : is_finer_granularity up down = true := by
      by_contra hnot
      rw [PartitionMapping.validate_compatibility, Bool.eq_false_iff.mpr hnot] at hcompatible
      cases hcompatible
    rw [PartitionMapping.validate_compatibility, hfiner] at hcompatible
    obtain ⟨hup, hdown⟩ := expect_granularities_eq_ok hcompatible
    rw [hp] at hdown
    cases hdown
    rw [hup]
    exact aggregation_maps_iff doc hfiner h h'
  | TimeWindow size granularity =>
    obtain ⟨hup, hdown⟩ := expect_granularities_eq_ok hcompatible
    rw [hp] at hdown
    cases hdown
    rw [hup, window_maps_iff doc (.inl ⟨size, rfl⟩) hvalid]
    exact (and_iff_right trivial).symm
  | TimeOffset offset granularity =>
    obtain ⟨hup, hdown⟩ := expect_granularities_eq_ok hcompatible
    rw [hp] at hdown
    cases hdown
    rw [hup, window_maps_iff doc (.inr ⟨offset, rfl⟩) hvalid]
    exact (and_iff_right trivial).symm
  | Custom expression => exact absurd rfl (hcustom expression)

end explicit

def month_partitions : PartitionConfig := ⟨.Time .Monthly, "month"⟩

def hour_partitions : PartitionConfig := ⟨.Time .Hourly, "hour"⟩

def year_partitions : PartitionConfig := ⟨.Time .Yearly, "year"⟩

theorem months_really_map : MapsToValid bounded_chrono (.TimeAggregation 12 .Monthly .Yearly)
    (.Time .Monthly) (Period.year 2024).key :=
  (@accepted_maps_iff _ _ _ _ _ _ bounded_exact month_partitions year_partitions
    (.TimeAggregation 12 .Monthly .Yearly) rfl nofun (.year 2024) rfl (by decide) (by decide)).mpr
    ⟨trivial, trivial⟩

/-- An aggregation of hours to years is accepted, and leaves the year as it is. -/
theorem hours_do_not_map :
    ¬ ∀ (NaiveDate NaiveDateTime : Type) (chrono : Chrono NaiveDate NaiveDateTime)
      (date : NaiveDate → Date) (hour leap_hour : NaiveDateTime → Int),
      chrono.Exact date hour leap_hour →
      ∀ (upstream downstream : PartitionConfig) (mapping : PartitionMapping),
        validate_dependency_with_mapping upstream downstream mapping = .ok () →
        (∀ expression, mapping ≠ .Custom expression) →
        ∀ p : Period, downstream.partition_type = .Time p.granularity →
          0 ≤ p.year_of → p.year_of ≤ 9999 →
          MapsToValid chrono mapping upstream.partition_type p.key := by
  intro hall
  have hmaps := hall _ _ _ _ _ _ bounded_exact hour_partitions year_partitions
    (.TimeAggregation 8760 .Hourly .Yearly) rfl nofun (.year 2024) rfl (by decide) (by decide)
  rw [maps_to_valid_of_identity rfl] at hmaps
  have hinvalid := not_hourly_key bounded_exact.documented
    (no_colon (p := .year 2024) nofun nofun (by decide) (by decide))
  rw [validate_time_format_iff.mp hmaps] at hinvalid
  cases hinvalid

end Servo
