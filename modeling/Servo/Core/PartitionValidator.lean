import Servo.Core.PartitionKeys

/-! # Validation of Partition Keys

    `servo_core::partition_validator`: which texts are keys of a time
    partition. The validator accepts more than one format for some
    granularities, and the canonical key of every period.
-/

namespace Servo

open Calendar

variable {NaiveDate NaiveDateTime : Type} (chrono : Chrono NaiveDate NaiveDateTime)

/-- `ValidationError`, as far as the check of a key produces it. -/
inductive ValidationError where
  | InvalidKeyFormat (key : String) (partition_type : PartitionType)
  deriving DecidableEq

/-- What `validate_time_key` looks for. -/
def is_time_key (key : String) : TimeGranularity → Bool
  | .Hourly =>
    (chrono.parse_date_time key "%Y-%m-%d %H:%M:%S").isSome ||
      (chrono.parse_date_time key "%Y-%m-%dT%H:%M:%S").isSome ||
      (chrono.parse_date_time key "%Y-%m-%d %H:00:00").isSome
  | .Daily => (chrono.parse_date key "%Y-%m-%d").isSome
  | .Weekly =>
    -- "2024-W03" or "2024-01-15" (Monday of week)
    decide ("-W".toList <:+: key.toList) && decide (7 ≤ key.utf8ByteSize) ||
      (chrono.parse_date key "%Y-%m-%d").isSome
  | .Monthly =>
    match split key "-" with
    | [year, month] =>
      (parse_i32 year).isSome && (parse_u32 month).any (fun m => 1 ≤ m && m ≤ 12)
    | _ => false
  | .Yearly => (parse_i32 key).isSome && key.utf8ByteSize = 4

theorem is_time_key_hourly (key : String) :
    is_time_key chrono key .Hourly =
      ((chrono.parse_date_time key "%Y-%m-%d %H:%M:%S").isSome ||
        (chrono.parse_date_time key "%Y-%m-%dT%H:%M:%S").isSome ||
        (chrono.parse_date_time key "%Y-%m-%d %H:00:00").isSome) := rfl

theorem is_time_key_daily (key : String) :
    is_time_key chrono key .Daily = (chrono.parse_date key "%Y-%m-%d").isSome := rfl

theorem is_time_key_weekly (key : String) :
    is_time_key chrono key .Weekly =
      (decide ("-W".toList <:+: key.toList) && decide (7 ≤ key.utf8ByteSize) ||
        (chrono.parse_date key "%Y-%m-%d").isSome) := rfl

theorem is_time_key_yearly (key : String) :
    is_time_key chrono key .Yearly = ((parse_i32 key).isSome && key.utf8ByteSize = 4) := rfl

/-- `validate_time_key`. -/
def validate_time_key (key : String) (granularity : TimeGranularity) :
    Except ValidationError Unit :=
  if is_time_key chrono key granularity then .ok ()
  else .error (.InvalidKeyFormat key (.Time granularity))

theorem validate_time_key_eq_ok_iff {key : String} {granularity : TimeGranularity} :
    validate_time_key chrono key granularity = .ok () ↔
      is_time_key chrono key granularity = true := by
  unfold validate_time_key
  split
  · next h => exact iff_of_true rfl h
  · next h => exact iff_of_false (fun heq => by cases heq) h

/-! ### Canonical keys are valid -/

variable {chrono} {date : NaiveDate → Date}

/-- The key of a day that `chrono` has written. -/
theorem is_daily_key (doc : chrono.Documented date) (x : NaiveDate) :
    is_time_key chrono (date_key (date x)) .Daily = true := by
  simp only [is_time_key_daily, doc.parse_date, Option.isSome_some]

theorem is_hourly_key (doc : chrono.Documented date) {d : Date} {h : Nat}
    (hyear : supported_year d.year) (hh : h < 24) :
    is_time_key chrono (hour_key d h) .Hourly = true := by
  simp only [is_time_key_hourly, doc.parse_hour d h hyear hh, Bool.true_or]

/-- All formats of an hourly key have colons. -/
theorem not_hourly_key (doc : chrono.Documented date) {key : String} (h : ':' ∉ key.toList) :
    is_time_key chrono key .Hourly = false := by
  have hnone : ∀ format, ':' ∈ format.toList →
      (chrono.parse_date_time key format).isSome = false := fun format hformat =>
    Bool.eq_false_iff.mpr fun hsome => h (doc.parse_literal key format hformat hsome)
  simp only [is_time_key_hourly, hnone _ (show ':' ∈ "%Y-%m-%d %H:%M:%S".toList by decide),
    hnone _ (show ':' ∈ "%Y-%m-%dT%H:%M:%S".toList by decide),
    hnone _ (show ':' ∈ "%Y-%m-%d %H:00:00".toList by decide), Bool.or_self]

/-- The year of a month key need not have four digits. -/
theorem is_monthly_key {width n m : Nat} (hn : n ≤ 9999) (hm : 1 ≤ m) (hm' : m ≤ 12) :
    is_time_key chrono (Text.pad width n ++ "-" ++ Text.pad 2 m) .Monthly = true := by
  simp only [is_time_key, split_pad "-" rfl (by decide), parse_i32_pad hn,
    parse_u32_pad (show m ≤ 9999 by omega), Option.isSome_some, Option.any_some, Bool.true_and,
    Bool.and_eq_true, decide_eq_true_eq]
  exact ⟨hm, hm'⟩

/-- A month key has one hyphen. -/
theorem not_monthly_key {width n width' m : Nat} {rest : String} :
    is_time_key chrono (Text.pad width n ++ "-" ++ (Text.pad width' m ++ "-" ++ rest)) .Monthly =
      false := by
  simp only [is_time_key, split_pad_append "-" _ rfl (by decide)]
  cases hrest : split rest "-" with
  | nil => exact absurd (List.map_eq_nil_iff.mp hrest) (Text.split_ne_nil _ _)
  | cons => rfl

/-- **The canonical keys are valid**, for years of four digits. -/
theorem is_time_key_of_period (doc : chrono.Documented date) {p : Period} (h : 0 ≤ p.year_of)
    (h' : p.year_of ≤ 9999) : is_time_key chrono p.key p.granularity = true := by
  cases p with
  | hour d hour hour_lt =>
    have hlow : (0 : Int) ≤ d.year := h
    have hhigh : d.year ≤ (9999 : Int) := h'
    exact is_hourly_key doc ⟨by omega, by omega⟩ hour_lt
  | day d =>
    have hlow : (0 : Int) ≤ d.year := h
    have hhigh : d.year ≤ (9999 : Int) := h'
    obtain ⟨x, -, rfl⟩ := doc.parse_daily_key (d := d) ⟨by omega, by omega⟩
    exact is_daily_key doc x
  | week w =>
    have hlow : (0 : Int) ≤ w.year := h
    have hhigh : w.year ≤ (9999 : Int) := h'
    have hbound := (first_week_succ w.year).2.2
    have hweek := w.week_le
    show is_time_key chrono (year_text w.year ++ "-W" ++ Text.pad 2 w.week) .Weekly = true
    rw [year_text_of_digits hlow hhigh]
    have hinfix : "-W".toList <:+: (Text.pad 4 w.year.toNat ++ "-W" ++
        Text.pad 2 w.week).toList := by
      rw [String.toList_append, String.toList_append]
      exact ⟨_, _, rfl⟩
    have hsize : (Text.pad 4 w.year.toNat ++ "-W" ++ Text.pad 2 w.week).utf8ByteSize = 8 := by
      rw [String.utf8ByteSize_append, String.utf8ByteSize_append,
        Text.utf8ByteSize_pad (by decide) (by omega), Text.utf8ByteSize_pad (by decide) (by omega)]
      rfl
    simp only [is_time_key_weekly, hinfix, hsize, decide_true, Bool.true_and, Bool.true_or,
      show 7 ≤ 8 by decide]
  | month m =>
    show is_time_key chrono (year_text m.year ++ "-" ++ Text.pad 2 m.month) .Monthly = true
    have hlow : (0 : Int) ≤ m.year := h
    have hhigh : m.year ≤ (9999 : Int) := h'
    rw [year_text_of_digits hlow hhigh]
    exact is_monthly_key (by omega) m.month_pos m.month_le
  | year y =>
    have hlow : (0 : Int) ≤ y := h
    have hhigh : y ≤ (9999 : Int) := h'
    show is_time_key chrono (year_text y) .Yearly = true
    rw [year_text_of_digits hlow hhigh]
    simp only [is_time_key_yearly, parse_i32_pad (show y.toNat ≤ 9999 by omega), Option.isSome_some,
      Text.utf8ByteSize_pad (show 0 < 4 by decide) (show y.toNat < 10 ^ 4 by omega), decide_true,
      Bool.and_self]

end Servo
