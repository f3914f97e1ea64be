import Servo.Core.BoundedCalendar
import Servo.Core.PartitionValidator

/-! # The Validator and the Parsers of Keys

    The validator and the mapper read keys by rules of their own. Hours and
    days are read alike. For the others there are texts that only one of the
    two accepts: a week that does not exist or cannot be read at all, a month
    with something behind it, a year that does not have four characters.
-/

namespace Servo

open Calendar

/-- The text is year and week of this week, in ISO notation. -/
def NamesWeek (key : String) (w : Week) : Prop :=
  ∃ year week : String, key = year ++ "-W" ++ week ∧ parse_i32 year = some w.year ∧
    parse_u32 week = some w.week

/-- The two numbers in front of a third part. -/
def NamesMonthAndMore (key : String) : Prop :=
  ∃ year month rest : String, key = year ++ "-" ++ month ++ "-" ++ rest ∧ '-' ∉ year.toList ∧
    (parse_i32 year).isSome ∧ ∃ m, parse_u32 month = some m ∧ 1 ≤ m ∧ m ≤ 12

variable {NaiveDate NaiveDateTime : Type}

/-- The parser that the mapper uses for a granularity accepts the key. -/
def parser_accepts (chrono : Chrono NaiveDate NaiveDateTime) (key : String) :
    TimeGranularity → Bool
  | .Hourly => (parse_hourly_key chrono key).isSome
  | .Daily => (parse_daily_key chrono key).isSome
  | .Weekly => (parse_weekly_key chrono key).isSome
  | .Monthly => (parse_monthly_key key).isSome
  | .Yearly => (parse_i32 key).isSome

/-- The keys about which the validator and the parser agree. -/
def ReadAlike (key : String) : TimeGranularity → Prop
  | .Hourly | .Daily => True
  | .Weekly => "-W".toList <:+: key.toList →
      (7 ≤ key.utf8ByteSize ↔ ∃ w, NamesWeek key w ∧ representable (monday w.index))
  | .Monthly => ¬ NamesMonthAndMore key
  | .Yearly => (parse_i32 key).isSome → key.utf8ByteSize = 4

/-! ### Splitting keys -/

/-- The text is made up of the pieces and the separators between them. -/
theorem intercalate_split (key : String) {pattern : String} (hne : pattern.toList ≠ []) :
    pattern.intercalate (split key pattern) = key := by
  apply String.toList_injective
  rw [String.toList_intercalate, split, List.map_map]
  have hid : (String.toList ∘ String.ofList) = id := funext fun _ => String.toList_ofList
  rw [hid, List.map_id, Text.intercalate_split hne]

/-- No piece has a hyphen. -/
theorem notMem_of_mem_split {key piece : String} (h : piece ∈ split key "-") :
    '-' ∉ piece.toList := by
  obtain ⟨chars, hchars, rfl⟩ := List.mem_map.mp h
  rw [String.toList_ofList]
  exact Text.notMem_of_mem_split hchars

theorem parse_iso_week_eq_some_iff {key : String} {year : Int} {week : Nat} :
    parse_iso_week key = some (year, week) ↔ ∃ y w : String, key = y ++ "-W" ++ w ∧
      parse_i32 y = some year ∧ parse_u32 w = some week := by
  constructor
  · intro h
    unfold parse_iso_week at h
    split at h
    · split at h
      · next y w hsplit =>
        split at h
        · next year' week' hyear hweek =>
          cases h
          have hjoin : String.intercalate "-W" (split key "-W") = key :=
            intercalate_split key (by decide)
          rw [hsplit, String.intercalate_cons_cons, String.intercalate_singleton] at hjoin
          exact ⟨y, w, hjoin.symm, hyear, hweek⟩
        · cases h
      · cases h
    · cases h
  · rintro ⟨y, w, rfl, hyear, hweek⟩
    have hy : 'W' ∉ y.toList := fun hmem => by
      have hchar := Text.mem_of_parse_signed hyear hmem
      revert hchar
      decide
    have hw : 'W' ∉ w.toList := fun hmem => by
      have hchar := Text.mem_of_parse_unsigned hweek hmem
      revert hchar
      decide
    have hinfix : "-W".toList <:+: (y ++ "-W" ++ w).toList := by
      rw [String.toList_append, String.toList_append]
      exact ⟨_, _, rfl⟩
    have hsplit : split (y ++ "-W" ++ w) "-W" = [y, w] := by
      have hpair := @Text.split_pair_append '-' 'W' (by decide) _ hy w.toList
      rw [Text.split_pair_of_notMem hw] at hpair
      rw [split, String.toList_append, String.toList_append, List.append_assoc]
      show (Text.split ['-', 'W'] (y.toList ++ '-' :: 'W' :: w.toList)).map String.ofList = _
      rw [hpair]
      simp
    rw [parse_iso_week, if_pos hinfix, hsplit]
    simp only [hyear, hweek]

/-- A third part of a key in front of which a month is read. -/
theorem names_month_and_more_iff {key : String} : NamesMonthAndMore key ↔
    (parse_monthly_key key).isSome ∧ (split key "-").length ≠ 2 := by
  constructor
  · rintro ⟨year, month, rest, rfl, hno, hyear, m, hm, hpos, hle⟩
    obtain ⟨y, hy⟩ := Option.isSome_iff_exists.mp hyear
    have hmonth : '-' ∉ month.toList := fun hmem => by
      have hchar := Text.mem_of_parse_unsigned hm hmem
      revert hchar
      decide
    have hsplit : split (year ++ "-" ++ month ++ "-" ++ rest) "-" =
        year :: month :: split rest "-" := by
      have hcut := Text.split_append_sep hmonth rest.toList
      have hcut' := Text.split_append_sep hno (month.toList ++ '-' :: rest.toList)
      rw [hcut] at hcut'
      have htext : (year ++ "-" ++ month ++ "-" ++ rest).toList =
          year.toList ++ '-' :: (month.toList ++ '-' :: rest.toList) := by
        simp
      rw [split, htext]
      show (Text.split ['-'] _).map String.ofList = _
      rw [hcut']
      simp [split]
    have hrest : split rest "-" ≠ [] := by
      unfold split
      exact fun hnil => Text.split_ne_nil _ _ (List.map_eq_nil_iff.mp hnil)
    rw [parse_monthly_key, hsplit]
    refine ⟨?_, fun hlength => ?_⟩
    · simp only [hy, hm]
      rw [if_pos ⟨hpos, hle⟩]
      rfl
    · have hzero : (split rest "-").length = 0 := by simpa using hlength
      exact hrest (List.length_eq_zero_iff.mp hzero)
  · intro hboth
    obtain ⟨hsome, hlength⟩ := hboth
    unfold parse_monthly_key at hsome
    split at hsome
    · next year month parts hsplit =>
      split at hsome
      · next y m hy hm =>
        have hbounds : 1 ≤ m ∧ m ≤ 12 := by
          by_contra hnot
          rw [if_neg hnot] at hsome
          cases hsome
        have hparts : parts ≠ [] := by
          rintro rfl
          exact hlength (by rw [hsplit]; rfl)
        have hjoin : String.intercalate "-" (split key "-") = key :=
          intercalate_split key (by decide)
        rw [hsplit, String.intercalate_cons_cons,
          String.intercalate_cons_of_ne_nil hparts] at hjoin
        refine ⟨year, month, String.intercalate "-" parts, ?_, ?_, ?_, m, hm, hbounds⟩
        · rw [← hjoin]
          simp [String.append_assoc]
        · exact notMem_of_mem_split (by rw [hsplit]; exact List.mem_cons_self)
        · rw [hy]
          rfl
      · cases hsome
    · cases hsome

/-! ### Weeks -/

namespace Chrono.Exact

variable {chrono : Chrono NaiveDate NaiveDateTime} {date : NaiveDate → Date}
  {hour leap_hour : NaiveDateTime → Int} (doc : chrono.Exact date hour leap_hour) {key : String}
include doc

/-- No date has a `W`. -/
theorem parse_date_of_iso (h : "-W".toList <:+: key.toList) :
    Servo.parse_daily_key chrono key = none :=
  doc.parse_date_none (h.subset (by decide : 'W' ∈ "-W".toList)) (by decide)

/-- A week in ISO notation is read if it exists and its Monday is representable. -/
theorem parse_weekly_key_of_iso (h : "-W".toList <:+: key.toList) {x : NaiveDate} :
    parse_weekly_key chrono key = some x ↔
      ∃ w, NamesWeek key w ∧ (date x).day_number = monday w.index := by
  unfold parse_weekly_key
  cases hiso : parse_iso_week key with
  | none =>
    refine iff_of_false ?_ ?_
    · show ¬ Servo.parse_daily_key chrono key = some x
      rw [doc.parse_date_of_iso h]
      nofun
    · rintro ⟨w, hnames, -⟩
      rw [parse_iso_week_eq_some_iff.mpr hnames] at hiso
      cases hiso
  | some found =>
    obtain ⟨year, week⟩ := found
    refine (doc.from_isoywd_opt year week x).trans (exists_congr fun w => ?_)
    rw [← and_assoc]
    refine and_congr_left fun _ => ?_
    constructor
    · rintro ⟨rfl, rfl⟩
      exact parse_iso_week_eq_some_iff.mp hiso
    · intro hnames
      have heq := (parse_iso_week_eq_some_iff.mpr hnames).symm.trans hiso
      cases heq
      exact ⟨rfl, rfl⟩

theorem parse_weekly_key_isSome_of_iso (h : "-W".toList <:+: key.toList) :
    (parse_weekly_key chrono key).isSome ↔
      ∃ w, NamesWeek key w ∧ representable (monday w.index) := by
  rw [Option.isSome_iff_exists]
  simp only [doc.parse_weekly_key_of_iso h]
  constructor
  · intro ⟨x, w, hnames, hx⟩
    exact ⟨w, hnames, hx ▸ doc.date_representable x⟩
  · intro ⟨w, hnames, hmonday⟩
    obtain ⟨x, hx⟩ := doc.exists_day hmonday
    exact ⟨x, w, hnames, hx⟩

end Chrono.Exact

/-- Other keys are read as dates. -/
theorem parse_weekly_key_of_date {chrono : Chrono NaiveDate NaiveDateTime} {key : String}
    (h : ¬ "-W".toList <:+: key.toList) :
    parse_weekly_key chrono key = parse_daily_key chrono key := by
  rw [parse_weekly_key, parse_iso_week, if_neg h]

/-! ### Agreement -/

/-- The validator wants a month with nothing behind it. -/
theorem is_monthly_key_iff {chrono : Chrono NaiveDate NaiveDateTime} {key : String} :
    is_time_key chrono key .Monthly = true ↔
      (parse_monthly_key key).isSome ∧ (split key "-").length = 2 := by
  rw [is_time_key, parse_monthly_key]
  rcases split key "-" with _ | ⟨year, _ | ⟨month, _ | ⟨rest, parts⟩⟩⟩
  · simp
  · simp
  · cases hyear : parse_i32 year <;> cases hmonth : parse_u32 month <;> simp [hyear, hmonth]
  · simp

/-- **The validator and the parser agree** about these keys, and about no others. -/
theorem read_alike_iff {chrono : Chrono NaiveDate NaiveDateTime} {date : NaiveDate → Date}
    {hour leap_hour : NaiveDateTime → Int} (doc : chrono.Exact date hour leap_hour)
    (key : String) (granularity : TimeGranularity) :
    (validate_time_key chrono key granularity = .ok () ↔
        parser_accepts chrono key granularity = true) ↔ ReadAlike key granularity := by
  rw [validate_time_key_eq_ok_iff]
  cases granularity with
  | Hourly =>
    refine iff_of_true ?_ trivial
    simp only [is_time_key, parser_accepts, parse_hourly_key, Option.isSome_or, Bool.or_eq_true]
    tauto
  | Daily => exact iff_of_true Iff.rfl trivial
  | Weekly =>
    by_cases h : "-W".toList <:+: key.toList
    · have hdate : chrono.parse_date key "%Y-%m-%d" = none := doc.parse_date_of_iso h
      have hvalid : is_time_key chrono key .Weekly = true ↔ 7 ≤ key.utf8ByteSize := by
        simp only [is_time_key, h, hdate, decide_true, Bool.true_and, Option.isSome_none,
          Bool.or_false, decide_eq_true_eq]
      rw [hvalid]
      show (_ ↔ (parse_weekly_key chrono key).isSome = true) ↔ (_ → _)
      rw [doc.parse_weekly_key_isSome_of_iso h]
      exact (imp_iff_right h).symm
    · refine iff_of_true ?_ fun hiso => absurd hiso h
      simp only [is_time_key, parser_accepts, parse_weekly_key_of_date h, h, decide_false,
        Bool.false_and, Bool.false_or]
      exact Iff.rfl
  | Monthly =>
    rw [is_monthly_key_iff]
    show (_ ↔ (parse_monthly_key key).isSome = true) ↔ ¬ NamesMonthAndMore key
    rw [names_month_and_more_iff]
    tauto
  | Yearly =>
    simp only [is_time_key, parser_accepts, ReadAlike, Bool.and_eq_true, decide_eq_true_eq]
    tauto

/-- A week that exists is read by both. -/
theorem third_week_is_read : validate_time_key bounded_chrono "2024-W03" .Weekly = .ok () ↔
    parser_accepts bounded_chrono "2024-W03" .Weekly = true := by
  refine (read_alike_iff bounded_exact "2024-W03" .Weekly).mpr fun _ => ?_
  refine iff_of_true (by decide +kernel) ⟨⟨2024, 3, by decide, by decide⟩, ?_, by decide⟩
  exact ⟨"2024", "03", rfl, by decide +kernel, by decide +kernel⟩

/-- The year 12345 is read by the mapper only. -/
theorem long_year_is_not_valid :
    ¬ ∀ (NaiveDate NaiveDateTime : Type) (chrono : Chrono NaiveDate NaiveDateTime)
      (date : NaiveDate → Date) (hour leap_hour : NaiveDateTime → Int),
      chrono.Exact date hour leap_hour →
      ∀ (key : String) (granularity : TimeGranularity),
        validate_time_key chrono key granularity = .ok () ↔
          parser_accepts chrono key granularity = true := by
  intro hall
  have hiff := hall _ _ _ _ _ _ bounded_exact "12345" .Yearly
  rw [validate_time_key_eq_ok_iff] at hiff
  have hread : parser_accepts bounded_chrono "12345" .Yearly = true := by
    show (parse_i32 "12345").isSome = true
    decide +kernel
  have hvalid : is_time_key bounded_chrono "12345" .Yearly = false := by
    show ((parse_i32 "12345").isSome && decide ("12345".utf8ByteSize = 4)) = false
    decide +kernel
  rw [hiff.mpr hread] at hvalid
  cases hvalid

end Servo
