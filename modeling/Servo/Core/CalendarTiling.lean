import Servo.Core.MappedValidity

/-! # How Mapped Periods Tile the Calendar

    The days of a month, the hours of a day and the months of a year are the
    keys that an aggregation returns, and every key of the finer granularity is
    returned for exactly one key of the coarser one.

    The days of a week are returned for a key that names a week. A key that is
    a date is taken for a Monday, and no one has checked it: the seven days from
    any other day of the week on belong to two weeks.
-/

namespace Servo

open Calendar

variable {NaiveDate NaiveDateTime : Type} {chrono : Chrono NaiveDate NaiveDateTime}
  {date : NaiveDate → Date} {hour leap_hour : NaiveDateTime → Int}

/-! ### The tiles -/

/-- "YYYY-MM-01" up to the last day of the month. -/
def month_tile (m : Month) : List String :=
  (List.range (Calendar.days_in_month m.year m.month)).map fun i =>
    year_text m.year ++ "-" ++ Text.pad 2 m.month ++ "-" ++ Text.pad 2 (i + 1)

/-- "YYYY-MM-DD 00:00:00" up to "YYYY-MM-DD 23:00:00". -/
def day_tile (d : Date) : List String := (List.range 24).map (hour_key d)

/-- "YYYY-01" up to "YYYY-12". -/
def year_tile (year : Int) : List String :=
  (List.range 12).map fun i => year_text year ++ "-" ++ Text.pad 2 (i + 1)

def four_digits (year : Int) : Prop := 1000 ≤ year ∧ year ≤ 9999

/-- The mapping of the coarser key contains the finer key. -/
def ImageContains (chrono : Chrono NaiveDate NaiveDateTime) (mapping : PartitionMapping)
    (coarse fine : String) : Prop :=
  ∃ keys, mapping.map_partition chrono coarse = some keys ∧ fine ∈ keys

/-- The aggregations are exact. -/
structure TilesCalendar (chrono : Chrono NaiveDate NaiveDateTime) (date : NaiveDate → Date)
    (factor : Nat) : Prop where
  /-- The length of a month is the one of `chrono`. -/
  month_length : ∀ m : Month, -262143 ≤ m.year → m.year ≤ 262142 → ∀ day,
    (chrono.from_ymd_opt m.year m.month day).isSome ↔
      1 ≤ day ∧ day ≤ Servo.days_in_month m.year m.month
  month_days : ∀ m : Month, four_digits m.year →
    PartitionMapping.map_partition chrono (.TimeAggregation factor .Daily .Monthly)
      (Period.month m).key = some (month_tile m)
  /-- However the date is written. -/
  day_hours : ∀ key, ∀ x ∈ parse_daily_key chrono key,
    PartitionMapping.map_partition chrono (.TimeAggregation factor .Hourly .Daily) key =
      some (day_tile (date x)) ∧ (day_tile (date x)).Nodup
  day_of_month : ∀ d : Date, four_digits d.year → ∃! m : Month, four_digits m.year ∧
    ImageContains chrono (.TimeAggregation factor .Daily .Monthly) (Period.month m).key (date_key d)
  hour_of_day : ∀ (d : Date) (h : Nat), representable d.day_number → h < 24 →
    ∃! d' : Date, representable d'.day_number ∧
      ImageContains chrono (.TimeAggregation factor .Hourly .Daily) (date_key d') (hour_key d h)
  month_of_year : ∀ m : Month, four_digits m.year → ∃! year : Int, four_digits year ∧
    ImageContains chrono (.TimeAggregation factor .Monthly .Yearly) (Period.year year).key
      (Period.month m).key

/-! ### Keys and their periods -/

theorem mem_month_tile {m : Month} {d : Date} : date_key d ∈ month_tile m ↔ d.toMonth = m := by
  rw [month_tile, List.mem_map]
  constructor
  · intro ⟨i, hi, hkey⟩
    have hlt := List.mem_range.mp hi
    have heq : date_key ⟨m, i + 1, by omega, by omega⟩ = date_key d := hkey
    rw [← date_key_inj heq]
  · rintro rfl
    have hpos := d.day_pos
    have hle := d.day_le
    refine ⟨d.day - 1, List.mem_range.mpr (by omega), ?_⟩
    rw [Nat.sub_add_cancel hpos]
    rfl

/-- An hour is determined by its key. -/
theorem hour_key_inj {d d' : Date} {h h' : Nat} (heq : hour_key d h = hour_key d' h') :
    d = d' ∧ h = h' := by
  have hfront : date_key d ++ " " ++ Text.pad 2 h = date_key d' ++ " " ++ Text.pad 2 h' := by
    apply String.toList_injective
    have hlist := congrArg String.toList heq
    have hsplit : ∀ front : String, (front ++ ":00:00").toList = front.toList ++ ":00:00".toList :=
      fun front => String.toList_append
    unfold hour_key at hlist
    rw [hsplit, hsplit] at hlist
    exact List.append_cancel_right hlist
  have hno : ∀ n, ' ' ∉ (Text.pad 2 n).toList := by
    intro n hmem
    have := Text.mem_pad hmem
    revert this
    decide
  obtain ⟨hdate, hhour⟩ := Text.last_field_string_inj " " rfl (hno h) (hno h') hfront
  exact ⟨date_key_inj hdate, Text.pad_inj hhour⟩

theorem mem_day_tile {d d' : Date} {h : Nat} (hh : h < 24) :
    hour_key d h ∈ day_tile d' ↔ d' = d := by
  rw [day_tile, List.mem_map]
  constructor
  · rintro ⟨h', -, heq⟩
    exact (hour_key_inj heq).1
  · rintro rfl
    exact ⟨h, List.mem_range.mpr hh, rfl⟩

theorem mem_year_tile {m : Month} {year : Int} :
    (Period.month m).key ∈ year_tile year ↔ year = m.year := by
  have hno : ∀ n, '-' ∉ (Text.pad 2 n).toList := by
    intro n hmem
    have := Text.mem_pad hmem
    revert this
    decide
  rw [year_tile, List.mem_map]
  constructor
  · rintro ⟨i, -, heq⟩
    exact year_text_inj (Text.last_field_string_inj "-" rfl (hno _) (hno _) heq).1
  · rintro rfl
    have hpos := m.month_pos
    have hle := m.month_le
    refine ⟨m.month - 1, List.mem_range.mpr (by omega), ?_⟩
    rw [Nat.sub_add_cancel hpos]
    rfl

/-! ### The mappings return the tiles -/

/-- The days of a month, as they are numbered through. -/
theorem days_from_month (m : Month) :
    days_from (month_start m.index) (Calendar.days_in_month m.year m.month) = month_tile m := by
  refine List.map_congr_left fun i hi => ?_
  have hlt := List.mem_range.mp hi
  have hday : (⟨m, i + 1, by omega, by omega⟩ : Date).day_number = month_start m.index + i :=
    Date.day_number_of_month m _ _
  rw [← hday, nth_daily, day_of_number_eq]
  rfl

theorem year_tile_eq {year : Int} (h : four_digits year) :
    ((List.range 12).map fun m => toString year ++ "-" ++ Text.pad 2 (m + 1)) = year_tile year := by
  have hlow := h.1
  have hhigh := h.2
  have htext : toString year = year_text year := by
    rw [year_text_of_digits (by omega) hhigh, toString_year (by omega),
      Text.pad_eq_repr (by omega) (by decide)]
  rw [year_tile, htext]

section exact
variable (doc : chrono.Exact date hour leap_hour) (factor : Nat)
include doc

theorem map_month_tile {m : Month} (h : four_digits m.year) :
    PartitionMapping.map_partition chrono (.TimeAggregation factor .Daily .Monthly)
      (Period.month m).key = some (month_tile m) := by
  have hlow := h.1
  have hhigh := h.2
  have hkey := parse_month_key (m := m) (by omega) hhigh
  rw [doc.map_partition_eq_some_iff]
  simp only [StaysInCalendar, mapped_keys, hkey, Option.map_some, Option.getD_some]
  refine ⟨?_, ?_⟩
  · rintro _ ⟨⟩
    exact ⟨by omega, by omega⟩
  · rw [days_in_month_eq, ← days_from_month]
    rfl

theorem map_day_tile {key : String} {x : NaiveDate} (hx : parse_daily_key chrono key = some x) :
    PartitionMapping.map_partition chrono (.TimeAggregation factor .Hourly .Daily) key =
      some (day_tile (date x)) := by
  rw [doc.map_partition_eq_some_iff]
  simp only [StaysInCalendar, mapped_keys, hx, Option.map_some, Option.getD_some, true_and]
  rfl

theorem map_date_tile {d : Date} (h : representable d.day_number) :
    PartitionMapping.map_partition chrono (.TimeAggregation factor .Hourly .Daily) (date_key d) =
      some (day_tile d) := by
  obtain ⟨x, hx, rfl⟩ := doc.parse_daily_key h
  exact map_day_tile doc factor hx

theorem map_year_tile {year : Int} (h : four_digits year) :
    PartitionMapping.map_partition chrono (.TimeAggregation factor .Monthly .Yearly)
      (Period.year year).key = some (year_tile year) := by
  have hlow := h.1
  have hkey := parse_year_key (y := year) (by omega) h.2
  rw [doc.map_partition_eq_some_iff]
  simp only [StaysInCalendar, mapped_keys, hkey, Option.map_some, Option.getD_some, true_and]
  exact (year_tile_eq h).symm

/-- **The aggregations tile the calendar.** -/
theorem tiles_calendar : TilesCalendar chrono date factor where
  month_length m hlow hhigh day := by
    rw [doc.from_ymd_opt_isSome, days_in_month_eq]
    constructor
    · rintro ⟨d, ⟨hyear, hmonth, rfl⟩, -⟩
      exact ⟨d.day_pos, by rw [← hyear, ← hmonth]; exact d.day_le⟩
    · intro ⟨hpos, hle⟩
      exact ⟨⟨m, day, hpos, hle⟩, ⟨rfl, rfl, rfl⟩, representable_iff_year.mpr ⟨hlow, hhigh⟩⟩
  month_days m h := map_month_tile doc factor h
  day_hours key x hx := by
    refine ⟨map_day_tile doc factor hx,
      List.Pairwise.map (hour_key (date x)) ?_ List.nodup_range⟩
    intro h h' hne heq
    exact hne (hour_key_inj heq).2
  day_of_month d h := by
    refine ⟨d.toMonth, ⟨h, _, map_month_tile doc factor h, mem_month_tile.mpr rfl⟩, ?_⟩
    intro m ⟨hm, keys, hkeys, hmem⟩
    rw [map_month_tile doc factor hm] at hkeys
    cases hkeys
    exact (mem_month_tile.mp hmem).symm
  hour_of_day d h hd hh := by
    refine ⟨d, ⟨hd, _, map_date_tile doc factor hd, (mem_day_tile hh).mpr rfl⟩, ?_⟩
    intro d' ⟨hd', keys, hkeys, hmem⟩
    rw [map_date_tile doc factor hd'] at hkeys
    cases hkeys
    exact (mem_day_tile hh).mp hmem
  month_of_year m h := by
    refine ⟨m.year, ⟨h, _, map_year_tile doc factor h, mem_year_tile.mpr rfl⟩, ?_⟩
    intro year ⟨hyear, keys, hkeys, hmem⟩
    rw [map_year_tile doc factor hyear] at hkeys
    cases hkeys
    exact mem_year_tile.mp hmem

end exact

theorem bounded_calendar_is_tiled : TilesCalendar bounded_chrono RepresentableDate.date 30 :=
  tiles_calendar bounded_exact 30

/-! ### Weeks -/

/-- The seven days of a week, from Monday to Sunday. -/
noncomputable def week_tile (w : Week) : List String := days_from (monday w.index) 7

variable (chrono date) in
/-- The key names the week, or is one of its days. -/
def DenotesWeek (key : String) (w : Week) : Prop :=
  NamesWeek key w ∨ ∃ x ∈ parse_daily_key chrono key,
    monday w.index ≤ (date x).day_number ∧ (date x).day_number ≤ monday w.index + 6

variable (chrono date) in
/-- The keys are mapped to one week if they denote the same, and to disjoint ones if not. -/
def MapsToWeeks (factor : Nat) (key key' : String) : Prop :=
  ∃ w w' : Week,
    PartitionMapping.map_partition chrono (.TimeAggregation factor .Daily .Weekly) key =
      some (week_tile w) ∧
    PartitionMapping.map_partition chrono (.TimeAggregation factor .Daily .Weekly) key' =
      some (week_tile w') ∧
    ((∃ v, DenotesWeek chrono date key v ∧ DenotesWeek chrono date key' v) →
      week_tile w = week_tile w') ∧
    ((¬ ∃ v, DenotesWeek chrono date key v ∧ DenotesWeek chrono date key' v) →
      ∀ day ∈ week_tile w, day ∉ week_tile w')

variable (chrono date) in
/-- The week can be read and written, and a date is a Monday. -/
def StartsOnMonday (key : String) : Prop :=
  WeekInCalendar chrono date key ∧
    ∀ x ∈ parse_daily_key chrono key, (date x).day_number % 7 = 1

/-- Two days that have the same key are the same day. -/
theorem nth_day_key_inj {n n' : Int}
    (h : (Period.nth .Daily n).key = (Period.nth .Daily n').key) : n = n' := by
  rw [nth_daily, nth_daily] at h
  have hday := date_key_inj h
  rw [← day_number_day_of_number n, hday, day_number_day_of_number]

theorem days_from_inj {n n' : Int} (h : days_from n 7 = days_from n' 7) : n = n' := by
  have hfirst : (days_from n 7)[0]? = (days_from n' 7)[0]? := by rw [h]
  have hkey := nth_day_key_inj (Option.some.inj hfirst)
  omega

/-- Different weeks have no day in common. -/
theorem week_tiles_disjoint {w w' : Week} (h : w ≠ w') {day : String} (hday : day ∈ week_tile w) :
    day ∉ week_tile w' := by
  intro hday'
  obtain ⟨i, hi, rfl⟩ := List.mem_map.mp hday
  obtain ⟨j, hj, hkey⟩ := List.mem_map.mp hday'
  have hi' := List.mem_range.mp hi
  have hj' := List.mem_range.mp hj
  have heq := nth_day_key_inj hkey
  apply h
  apply Week.index_inj
  unfold monday at heq
  omega

/-- A text names one week. -/
theorem names_week_unique {key : String} {w w' : Week} (h : NamesWeek key w)
    (h' : NamesWeek key w') : w = w' := by
  have hread := parse_iso_week_eq_some_iff.mpr h
  rw [parse_iso_week_eq_some_iff.mpr h'] at hread
  have hpair := Option.some.inj hread
  exact Week.ext (congrArg Prod.fst hpair).symm (congrArg Prod.snd hpair).symm

theorem is_iso_of_names_week {key : String} {w : Week} (h : NamesWeek key w) :
    "-W".toList <:+: key.toList := by
  obtain ⟨year, week, rfl, -, -⟩ := h
  exact ⟨year.toList, week.toList, by simp⟩

/-- A weekly key in the other notation is a date. -/
theorem exists_date_of_weekly_key {key : String} (hkey : is_time_key chrono key .Weekly = true)
    (hiso : ¬ "-W".toList <:+: key.toList) : ∃ x, parse_daily_key chrono key = some x := by
  simp only [is_time_key, hiso, decide_false, Bool.false_and, Bool.false_or] at hkey
  exact Option.isSome_iff_exists.mp hkey

section weekly
variable (doc : chrono.Exact date hour leap_hour) {factor : Nat} {key key' : String} {w w' : Week}
include doc

/-- A key denotes at most one week. -/
theorem denotes_week_unique (h : DenotesWeek chrono date key w)
    (h' : DenotesWeek chrono date key w') : w = w' := by
  have hno : ∀ {v : Week}, NamesWeek key v → ∀ x, ¬ x ∈ parse_daily_key chrono key := by
    intro v hv x hx
    rw [doc.parse_date_of_iso (is_iso_of_names_week hv)] at hx
    cases hx
  rcases h with hnames | ⟨x, hx, hlow, hhigh⟩
  · rcases h' with hnames' | ⟨x, hx, -, -⟩
    · exact names_week_unique hnames hnames'
    · exact absurd hx (hno hnames x)
  · rcases h' with hnames' | ⟨x', hx', hlow', hhigh'⟩
    · exact absurd hx (hno hnames' x)
    · cases hx.symm.trans hx'
      apply Week.index_inj
      unfold monday at hlow hhigh hlow' hhigh'
      omega

/-- A key is mapped to a week if and only if it denotes it and starts on its Monday. -/
theorem maps_to_week_iff (hkey : is_time_key chrono key .Weekly = true) :
    PartitionMapping.map_partition chrono (.TimeAggregation factor .Daily .Weekly) key =
        some (week_tile w) ↔
      DenotesWeek chrono date key w ∧ StartsOnMonday chrono date key := by
  rw [doc.map_partition_eq_some_iff]
  simp only [StaysInCalendar, mapped_keys]
  by_cases hiso : "-W".toList <:+: key.toList
  · have hdate : parse_daily_key chrono key = none := doc.parse_date_of_iso hiso
    have hdenotes : DenotesWeek chrono date key w ↔ NamesWeek key w := by
      simp [DenotesWeek, hdate]
    have hstarts : StartsOnMonday chrono date key ↔
        ∃ v, NamesWeek key v ∧ first_day ≤ monday v.index ∧ monday v.index + 6 ≤ last_day := by
      simp only [StartsOnMonday, WeekInCalendar, hdate, hiso, forall_const, not_true_eq_false,
        false_implies, Option.mem_def, reduceCtorEq, implies_true, and_true]
    rw [hdenotes, hstarts]
    cases hweek : parse_weekly_key chrono key with
    | none =>
      refine iff_of_false ?_ ?_
      · rintro ⟨-, heq⟩
        exact absurd (congrArg List.length heq) (by simp [week_tile, days_from])
      · rintro ⟨-, v, hnames, hlow, hhigh⟩
        have hsome := (doc.parse_weekly_key_isSome_of_iso hiso).mpr ⟨v, hnames, hlow, by omega⟩
        rw [hweek] at hsome
        cases hsome
    | some x =>
      obtain ⟨v, hnames, hx⟩ := (doc.parse_weekly_key_of_iso hiso).mp hweek
      have hrange := doc.date_representable x
      constructor
      · intro hboth
        obtain ⟨hstays, heq⟩ := hboth
        have hday : monday w.index = (date x).day_number := days_from_inj heq
        have hvw : v = w := Week.index_inj (by unfold monday at hx hday; omega)
        subst hvw
        exact ⟨hnames, v, hnames, hday ▸ hrange.1, hday ▸ hstays x rfl⟩
      · rintro ⟨hnames', v', hv', -, hhigh⟩
        have hv : v = w := names_week_unique hnames hnames'
        have hv' : v' = w := names_week_unique hv' hnames'
        subst hv hv'
        refine ⟨?_, ?_⟩
        · rintro _ ⟨⟩
          rwa [hx]
        · rw [Option.map_some, Option.getD_some, hx]
          rfl
  · -- a date, which has been accepted as one
    have hparse : parse_weekly_key chrono key = parse_daily_key chrono key :=
      parse_weekly_key_of_date hiso
    obtain ⟨x, hx⟩ := exists_date_of_weekly_key hkey hiso
    have hno : ¬ NamesWeek key w := fun hnames => hiso (is_iso_of_names_week hnames)
    have hdenotes : DenotesWeek chrono date key w ↔
        monday w.index ≤ (date x).day_number ∧ (date x).day_number ≤ monday w.index + 6 := by
      simp [DenotesWeek, hno, hx]
    have hstarts : StartsOnMonday chrono date key ↔
        (date x).day_number + 6 ≤ last_day ∧ (date x).day_number % 7 = 1 := by
      simp only [StartsOnMonday, WeekInCalendar, hiso, hx, false_implies, not_false_eq_true,
        forall_const, Option.mem_def, Option.some.injEq, forall_eq', true_and]
    have htile : week_tile w = days_from (date x).day_number 7 ↔
        monday w.index = (date x).day_number :=
      ⟨days_from_inj, fun h => congrArg (fun n => days_from n 7) h⟩
    have hstays : (∀ y ∈ some x, (date y).day_number + 6 ≤ last_day) ↔
        (date x).day_number + 6 ≤ last_day := by simp
    rw [hdenotes, hstarts, hparse, hx, Option.map_some, Option.getD_some, htile, hstays]
    unfold monday
    omega

end weekly

/-- A key that starts on a Monday denotes a week. -/
theorem exists_denoted_week {key : String} (hkey : is_time_key chrono key .Weekly = true)
    (h : StartsOnMonday chrono date key) : ∃ v, DenotesWeek chrono date key v := by
  by_cases hiso : "-W".toList <:+: key.toList
  · obtain ⟨v, hnames, -⟩ := h.1.1 hiso
    exact ⟨v, .inl hnames⟩
  · obtain ⟨x, hx⟩ := exists_date_of_weekly_key hkey hiso
    obtain ⟨v, hv⟩ := Week.exists_index (((date x).day_number - 1) / 7)
    refine ⟨v, .inr ⟨x, hx, ?_, ?_⟩⟩ <;> unfold monday <;> omega

/-- **Weeks are blocks from Monday to Sunday** if and only if both keys start on a Monday. -/
theorem maps_to_weeks_iff (doc : chrono.Exact date hour leap_hour) {factor : Nat}
    {key key' : String} (hkey : validate_time_key chrono key .Weekly = .ok ())
    (hkey' : validate_time_key chrono key' .Weekly = .ok ()) :
    MapsToWeeks chrono date factor key key' ↔
      StartsOnMonday chrono date key ∧ StartsOnMonday chrono date key' := by
  have hvalid := (validate_time_key_eq_ok_iff chrono).mp hkey
  have hvalid' := (validate_time_key_eq_ok_iff chrono).mp hkey'
  constructor
  · rintro ⟨w, w', hmap, hmap', -⟩
    exact ⟨((maps_to_week_iff doc hvalid).mp hmap).2, ((maps_to_week_iff doc hvalid').mp hmap').2⟩
  · intro ⟨hstarts, hstarts'⟩
    obtain ⟨w, hw⟩ := exists_denoted_week hvalid hstarts
    obtain ⟨w', hw'⟩ := exists_denoted_week hvalid' hstarts'
    refine ⟨w, w', (maps_to_week_iff doc hvalid).mpr ⟨hw, hstarts⟩,
      (maps_to_week_iff doc hvalid').mpr ⟨hw', hstarts'⟩, ?_, ?_⟩
    · intro ⟨v, hv, hv'⟩
      rw [denotes_week_unique doc hw hv, denotes_week_unique doc hw' hv']
    · intro hnone day hday
      have hne : w ≠ w' := by
        rintro rfl
        exact hnone ⟨w, hw, hw'⟩
      exact week_tiles_disjoint hne hday

/-- Monday, the 15th of January 2024, lies in the third week of the year. -/
theorem january_week_maps :
    MapsToWeeks bounded_chrono RepresentableDate.date 7 "2024-W03" "2024-01-15" := by
  have hnames : NamesWeek "2024-W03" ⟨2024, 3, by decide, by decide⟩ :=
    ⟨"2024", "03", rfl, by decide +kernel, by decide +kernel⟩
  have hno : parse_daily_key bounded_chrono "2024-W03" = none :=
    bounded_exact.parse_date_of_iso (is_iso_of_names_week hnames)
  obtain ⟨x, hx, hday⟩ := bounded_exact.parse_daily_key
    (d := ⟨⟨2024, 1, by decide, by decide⟩, 15, by decide, by decide⟩) (by decide)
  have hdate : parse_daily_key bounded_chrono "2024-01-15" = some x := hx
  refine (maps_to_weeks_iff bounded_exact ?_ ?_).mpr ⟨⟨⟨fun _ => ?_, ?_⟩, ?_⟩, ⟨?_, ?_⟩, ?_⟩
  · rw [validate_time_key_eq_ok_iff]
    simp only [is_time_key, Bool.or_eq_true]
    exact .inl (by decide +kernel)
  · rw [validate_time_key_eq_ok_iff]
    simp only [is_time_key, Bool.or_eq_true]
    exact .inr (Option.isSome_iff_exists.mpr ⟨x, hdate⟩)
  · exact ⟨_, hnames, by decide, by decide⟩
  · intro _ y hy
    rw [hno] at hy
    cases hy
  · intro y hy
    rw [hno] at hy
    cases hy
  · intro hiso
    exact absurd hiso (by decide +kernel)
  · intro _ y hy
    cases hdate.symm.trans hy
    rw [hday]
    decide
  · intro y hy
    cases hdate.symm.trans hy
    rw [hday]
    decide

/-- Wednesday, the 17th of January 2024, is mapped to the days up to the next Tuesday. -/
theorem wednesday_starts_no_week :
    ¬ ∀ (NaiveDate NaiveDateTime : Type) (chrono : Chrono NaiveDate NaiveDateTime)
      (date : NaiveDate → Date) (hour leap_hour : NaiveDateTime → Int),
      chrono.Exact date hour leap_hour → ∀ (factor : Nat) (key key' : String),
        validate_time_key chrono key .Weekly = .ok () →
        validate_time_key chrono key' .Weekly = .ok () →
        MapsToWeeks chrono date factor key key' := by
  intro hall
  obtain ⟨x, hx, hday⟩ := bounded_exact.parse_daily_key
    (d := ⟨⟨2024, 1, by decide, by decide⟩, 17, by decide, by decide⟩) (by decide)
  have hdate : parse_daily_key bounded_chrono "2024-01-17" = some x := hx
  have hkey : is_time_key bounded_chrono "2024-01-17" .Weekly = true := by
    simp only [is_time_key, Bool.or_eq_true]
    exact .inr (Option.isSome_iff_exists.mpr ⟨x, hdate⟩)
  have hvalid := (validate_time_key_eq_ok_iff bounded_chrono).mpr hkey
  obtain ⟨w, w', hmap, -⟩ := hall _ _ _ _ _ _ bounded_exact 7 _ _ hvalid hvalid
  have hmonday := ((maps_to_week_iff bounded_exact hkey).mp hmap).2.2 x hdate
  rw [hday] at hmonday
  revert hmonday
  decide

end Servo
