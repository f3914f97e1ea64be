import Servo.Core.PartitionMapping
import Servo.Framework.Calendar

/-! # The Keys of Calendar Periods

    A time partition is a period of the calendar, and its key is the text by
    which all parts of the system know it. The periods of one granularity are
    counted through by `Period.index`; `Period.nth` is the period with a given
    number.

    What `chrono` documents is stated on calendar days. From it follows what
    the mapping makes of the key of a period: the keys of the finer periods
    that it consists of.
-/

namespace Servo

open Calendar

/-! ### Periods -/

/-- A period of the calendar that a key names. -/
inductive Period where
  | hour (date : Date) (hour : Nat) (hour_lt : hour < 24)
  | day (date : Date)
  | week (week : Week)
  | month (month : Month)
  | year (year : Int)

/-- A year of four digits, with a sign where there are more, or where it is negative. -/
def year_text (year : Int) : String :=
  if 0 ≤ year ∧ year ≤ 9999 then Text.pad 4 year.toNat
  else (if year < 0 then "-" else "+") ++ Text.pad 4 year.natAbs

/-- "YYYY-MM-DD". -/
def date_key (date : Date) : String :=
  year_text date.year ++ "-" ++ Text.pad 2 date.month ++ "-" ++ Text.pad 2 date.day

/-- "YYYY-MM-DD HH:00:00". -/
def hour_key (date : Date) (hour : Nat) : String :=
  date_key date ++ " " ++ Text.pad 2 hour ++ ":00:00"

namespace Period

def granularity : Period → TimeGranularity
  | .hour _ _ _ => .Hourly
  | .day _ => .Daily
  | .week _ => .Weekly
  | .month _ => .Monthly
  | .year _ => .Yearly

/-- The number of the period among those of its granularity. -/
def index : Period → Int
  | .hour date h _ => 24 * date.day_number + h
  | .day date => date.day_number
  | .week w => w.index
  | .month m => m.index
  | .year y => y

/-- The year in the key; for a week that of the ISO calendar. -/
def year_of : Period → Int
  | .hour date _ _ => date.year
  | .day date => date.year
  | .week w => w.year
  | .month m => m.year
  | .year y => y

/-- The key of the period: zero-padded, and a week by its number. -/
def key : Period → String
  | .hour date h _ => hour_key date h
  | .day date => date_key date
  | .week w => year_text w.year ++ "-W" ++ Text.pad 2 w.week
  | .month m => year_text m.year ++ "-" ++ Text.pad 2 m.month
  | .year y => year_text y

theorem index_inj {p q : Period} (hg : p.granularity = q.granularity) (hi : p.index = q.index) :
    p = q := by
  cases p with
  | hour date hour hour_lt =>
    cases q with
    | hour date' hour' hour_lt' =>
      have hi' : 24 * date.day_number + hour = 24 * date'.day_number + hour' := hi
      have hdate : date = date' := Date.day_number_inj (by omega)
      subst hdate
      have hhour : hour = hour' := by omega
      subst hhour
      rfl
    | _ => cases hg
  | day date =>
    cases q with
    | day date' => exact congrArg day (Date.day_number_inj hi)
    | _ => cases hg
  | week w =>
    cases q with
    | week w' => exact congrArg week (Week.index_inj hi)
    | _ => cases hg
  | month m =>
    cases q with
    | month m' => exact congrArg month (Month.index_inj hi)
    | _ => cases hg
  | year y =>
    cases q with
    | year y' => exact congrArg year hi
    | _ => cases hg

theorem exists_index (g : TimeGranularity) (n : Int) :
    ∃ p : Period, p.granularity = g ∧ p.index = n := by
  cases g with
  | Hourly =>
    obtain ⟨date, hdate⟩ := Date.exists_day_number (n / 24)
    refine ⟨.hour date (n % 24).toNat (by omega), rfl, ?_⟩
    show 24 * date.day_number + ((n % 24).toNat : Int) = n
    omega
  | Daily =>
    obtain ⟨date, hdate⟩ := Date.exists_day_number n
    exact ⟨.day date, rfl, hdate⟩
  | Weekly =>
    obtain ⟨w, hw⟩ := Week.exists_index n
    exact ⟨.week w, rfl, hw⟩
  | Monthly =>
    obtain ⟨m, hm⟩ := Month.exists_index n
    exact ⟨.month m, rfl, hm⟩
  | Yearly => exact ⟨.year n, rfl, rfl⟩

/-- The `n`-th period of a granularity. -/
noncomputable def nth (g : TimeGranularity) (n : Int) : Period := (exists_index g n).choose

@[simp] theorem granularity_nth (g : TimeGranularity) (n : Int) : (nth g n).granularity = g :=
  (exists_index g n).choose_spec.1

@[simp] theorem index_nth (g : TimeGranularity) (n : Int) : (nth g n).index = n :=
  (exists_index g n).choose_spec.2

theorem eq_nth {p : Period} {g : TimeGranularity} {n : Int} (hg : p.granularity = g)
    (hi : p.index = n) : p = nth g n :=
  index_inj (by simpa using hg) (by simpa using hi)

/-- The first period with a given year in its key. -/
def year_start : TimeGranularity → Int → Int
  | .Hourly, y => 24 * (days_before_year y + 1)
  | .Daily, y => days_before_year y + 1
  | .Weekly, y => first_week y
  | .Monthly, y => 12 * y
  | .Yearly, y => y

theorem year_start_lt (g : TimeGranularity) (y : Int) : year_start g y < year_start g (y + 1) := by
  have hdays := days_before_year_lt y
  have hweeks := first_week_lt y
  cases g <;> simp only [year_start] <;> omega

theorem year_start_le (p : Period) : year_start p.granularity p.year_of ≤ p.index ∧
    p.index < year_start p.granularity (p.year_of + 1) := by
  cases p with
  | hour date hour hour_lt =>
    have hlow := date.days_before_year_lt
    have hhigh := date.day_number_le
    show 24 * (days_before_year date.year + 1) ≤ 24 * date.day_number + hour ∧
      24 * date.day_number + hour < 24 * (days_before_year (date.year + 1) + 1)
    omega
  | day date =>
    have hlow := date.days_before_year_lt
    have hhigh := date.day_number_le
    show days_before_year date.year + 1 ≤ date.day_number ∧
      date.day_number < days_before_year (date.year + 1) + 1
    omega
  | week w => exact ⟨w.first_week_le, w.lt_first_week⟩
  | month m =>
    have hyear := m.year_eq
    show 12 * m.year ≤ m.index ∧ m.index < 12 * (m.year + 1)
    omega
  | year y => show y ≤ y ∧ y < y + 1; omega

/-- Later periods have later years. -/
theorem year_of_mono {p q : Period} (hg : p.granularity = q.granularity) (hi : p.index ≤ q.index) :
    p.year_of ≤ q.year_of := by
  have hp := p.year_start_le
  have hq := q.year_start_le
  rw [← hg] at hq
  have hlt := (strict_mono_of_lt_succ (year_start_lt p.granularity)).lt_iff_lt.mp
    (hp.1.trans_lt (hi.trans_lt hq.2))
  omega

end Period

/-! ### Reading the keys back -/

theorem year_text_of_digits {y : Int} (h : 0 ≤ y) (h' : y ≤ 9999) :
    year_text y = Text.pad 4 y.toNat := if_pos ⟨h, h'⟩

theorem parse_i32_pad {width n : Nat} (h : n ≤ 9999) :
    parse_i32 (Text.pad width n) = some (n : Int) :=
  Text.parse_signed_pad (by omega)

theorem parse_u32_pad {width n : Nat} (h : n ≤ 9999) : parse_u32 (Text.pad width n) = some n :=
  Text.parse_unsigned_pad (by omega)

/-- A number in front of the separator. -/
theorem split_pad_append {width n : Nat} (pattern rest : String) {first : Char}
    {tail : List Char} (hpattern : pattern.toList = first :: tail)
    (hfirst : first.isDigit = false) :
    split (Text.pad width n ++ pattern ++ rest) pattern =
      Text.pad width n :: split rest pattern := by
  have hno : first ∉ (Text.pad width n).toList := by
    intro hmem
    rw [Text.mem_pad hmem] at hfirst
    cases hfirst
  rw [split, split, String.toList_append, String.toList_append, hpattern, Text.split_append hno,
    List.map_cons, String.ofList_toList]

/-- Two numbers with a separator between them. -/
theorem split_pad {width width' n m : Nat} (pattern : String) {first : Char} {rest : List Char}
    (hpattern : pattern.toList = first :: rest) (hfirst : first.isDigit = false) :
    split (Text.pad width n ++ pattern ++ Text.pad width' m) pattern =
      [Text.pad width n, Text.pad width' m] := by
  have hno : first ∉ (Text.pad width' m).toList := by
    intro hmem
    rw [Text.mem_pad hmem] at hfirst
    cases hfirst
  rw [split_pad_append pattern _ hpattern hfirst, split, hpattern, Text.split_of_notMem hno]
  simp

theorem parse_year_key {y : Int} (h : 0 ≤ y) (h' : y ≤ 9999) :
    parse_i32 (Period.year y).key = some y := by
  show parse_i32 (year_text y) = some y
  rw [year_text_of_digits h h', parse_i32_pad (by omega), Int.toNat_of_nonneg h]

/-- Year and month are read whatever the width of the year. -/
theorem parse_monthly_key_pad {width n m : Nat} (hn : n ≤ 9999) (hm : 1 ≤ m) (hm' : m ≤ 12) :
    parse_monthly_key (Text.pad width n ++ "-" ++ Text.pad 2 m) = some ((n : Int), m) := by
  rw [parse_monthly_key, split_pad _ rfl (by decide)]
  simp only [parse_i32_pad hn, parse_u32_pad (show m ≤ 9999 by omega)]
  exact if_pos ⟨hm, hm'⟩

theorem parse_month_key {m : Month} (h : 0 ≤ m.year) (h' : m.year ≤ 9999) :
    parse_monthly_key (Period.month m).key = some (m.year, m.month) := by
  show parse_monthly_key (year_text m.year ++ "-" ++ Text.pad 2 m.month) = _
  rw [year_text_of_digits h h', parse_monthly_key_pad (by omega) m.month_pos m.month_le,
    Int.toNat_of_nonneg h]

theorem parse_week_key {w : Week} (h : 0 ≤ w.year) (h' : w.year ≤ 9999) :
    parse_iso_week (Period.week w).key = some (w.year, w.week) := by
  have hweek := w.week_le
  have hbound := (first_week_succ w.year).2.2
  show parse_iso_week (year_text w.year ++ "-W" ++ Text.pad 2 w.week) = _
  rw [year_text_of_digits h h']
  have hinfix : "-W".toList <:+: (Text.pad 4 w.year.toNat ++ "-W" ++ Text.pad 2 w.week).toList := by
    rw [String.toList_append, String.toList_append]
    exact ⟨_, _, rfl⟩
  rw [parse_iso_week, if_pos hinfix, split_pad _ rfl (by decide)]
  simp only [parse_i32_pad (show w.year.toNat ≤ 9999 by omega),
    parse_u32_pad (show w.week ≤ 9999 by omega), Int.toNat_of_nonneg h]

/-! ### What `chrono` documents -/

/-- Years that `chrono` supports, and the next and the last. -/
def supported_year (year : Int) : Prop := -262142 ≤ year ∧ year ≤ 262141

variable {NaiveDate NaiveDateTime : Type}

/-- The functions of `chrono` work on the days of the calendar. -/
structure Chrono.Documented (chrono : Chrono NaiveDate NaiveDateTime) (date : NaiveDate → Date) :
    Prop where
  /-- A valid date of a supported year exists. -/
  from_ymd_opt : ∀ d : Date, supported_year d.year →
    ∃ x, chrono.from_ymd_opt d.year d.month d.day = some x ∧ date x = d
  /-- The Monday of a valid ISO week. -/
  from_isoywd_opt : ∀ w : Week, supported_year w.year →
    ∃ x, chrono.from_isoywd_opt w.year w.week = some x ∧ (date x).day_number = monday w.index
  /-- Adding days counts them, as long as the years are supported. -/
  add_days : ∀ x n (d : Date), d.day_number = (date x).day_number + n → supported_year d.year →
    ∃ x', chrono.add_days x n = some x' ∧ date x' = d
  /-- `%Y` is zero-padded to four digits, with a sign outside of 0 to 9999; `%m` and `%d` are
      zero-padded to two. -/
  format_date : ∀ x, chrono.format_date x "%Y-%m-%d" = date_key (date x)
  /-- What has been written is read back. -/
  parse_date : ∀ x, chrono.parse_date (date_key (date x)) "%Y-%m-%d" = some x
  /-- A time of a valid date is read, with `%H`, `%M` and `%S` zero-padded to two digits. -/
  parse_hour : ∀ (d : Date) (h : Nat), supported_year d.year → h < 24 →
    (chrono.parse_date_time (hour_key d h) "%Y-%m-%d %H:%M:%S").isSome
  /-- The literal characters of a format are expected in the text. -/
  parse_literal : ∀ text format, ':' ∈ format.toList →
    (chrono.parse_date_time text format).isSome → ':' ∈ text.toList

namespace Chrono.Documented

variable {chrono : Chrono NaiveDate NaiveDateTime} {date : NaiveDate → Date}
  (doc : chrono.Documented date)
include doc

theorem parse_daily_key {d : Date} (hd : supported_year d.year) :
    ∃ x, Servo.parse_daily_key chrono (date_key d) = some x ∧ date x = d := by
  obtain ⟨x, -, hx⟩ := doc.from_ymd_opt d hd
  exact ⟨x, hx ▸ doc.parse_date x, hx⟩

end Chrono.Documented

/-- Days that are not far from the years of four digits have supported years. -/
theorem supported_of_day_number {d : Date} (hlow : days_before_year (-2) < d.day_number)
    (hhigh : d.day_number ≤ days_before_year 10002) : supported_year d.year := by
  have hle : d.year ≤ 10001 := Date.year_le hhigh
  have hge := Date.le_year hlow
  exact ⟨by omega, by omega⟩

/-! ### The calendar itself -/

theorem year_text_inj {y y' : Int} (h : year_text y = year_text y') : y = y' := by
  have hsign : ∀ {n m : Nat} {c : Char} (text : String), text.toList = [c] → c.isDigit = false →
      Text.pad 4 n ≠ text ++ Text.pad 4 m := by
    intro n m c text htext hc heq
    refine Text.head_pad_ne 4 n hc ?_
    rw [heq, String.toList_append, htext]
    rfl
  have hcut : ∀ {n m : Nat} (text : String),
      text ++ Text.pad 4 n = text ++ Text.pad 4 m → n = m := by
    intro n m text heq
    have hlist := congrArg String.toList heq
    rw [String.toList_append, String.toList_append] at hlist
    exact Text.pad_inj (String.toList_injective (List.append_cancel_left hlist))
  have hhead : ∀ {n m : Nat}, "-" ++ Text.pad 4 n ≠ "+" ++ Text.pad 4 m := by
    intro n m heq
    have hlist := congrArg String.toList heq
    rw [String.toList_append, String.toList_append] at hlist
    cases hlist
  have hminus := fun {n m : Nat} => @hsign n m '-' "-" rfl (by decide)
  have hplus := fun {n m : Nat} => @hsign n m '+' "+" rfl (by decide)
  unfold year_text at h
  by_cases hy : 0 ≤ y ∧ y ≤ 9999 <;> by_cases hy' : 0 ≤ y' ∧ y' ≤ 9999
  · rw [if_pos hy, if_pos hy'] at h
    have := Text.pad_inj h
    omega
  · rw [if_pos hy, if_neg hy'] at h
    split at h
    · exact absurd h hminus
    · exact absurd h hplus
  · rw [if_neg hy, if_pos hy'] at h
    split at h
    · exact absurd h.symm hminus
    · exact absurd h.symm hplus
  · rw [if_neg hy, if_neg hy'] at h
    split at h <;> split at h
    · have := hcut "-" h
      omega
    · exact absurd h hhead
    · exact absurd h.symm hhead
    · have := hcut "+" h
      omega

/-- A day is determined by its key. -/
theorem date_key_inj {d d' : Date} (h : date_key d = date_key d') : d = d' := by
  have hno : ∀ {w n : Nat}, '-' ∉ (Text.pad w n).toList := by
    intro w n hmem
    have := Text.mem_pad hmem
    revert this
    decide
  obtain ⟨hfront, hday⟩ := Text.last_field_string_inj "-" rfl hno hno h
  obtain ⟨hyear, hmonth⟩ := Text.last_field_string_inj "-" rfl hno hno hfront
  have hm : d.toMonth = d'.toMonth := Month.ext (year_text_inj hyear) (Text.pad_inj hmonth)
  refine Date.day_number_inj ?_
  unfold Date.day_number
  rw [hm, Text.pad_inj hday]

/-- The day with a number. -/
noncomputable def day_of_number (n : Int) : Date := (Date.exists_day_number n).choose

theorem day_number_day_of_number (n : Int) : (day_of_number n).day_number = n :=
  (Date.exists_day_number n).choose_spec

/-- The functions on the calendar itself, which read what they write. -/
noncomputable def calendar_chrono : Chrono Date (Date × Nat) where
  from_ymd_opt year month day :=
    open Classical in
    if h : ∃ d : Date, d.year = year ∧ d.month = month ∧ d.day = day then some h.choose else none
  from_isoywd_opt year week :=
    if 1 ≤ week ∧ week ≤ weeks_in_year year then
      some (day_of_number (monday (first_week year + (week - 1 : Nat))))
    else none
  parse_date text format :=
    open Classical in
    if h : format = "%Y-%m-%d" ∧ ∃ d, date_key d = text then some h.2.choose else none
  parse_date_time text format :=
    open Classical in
    if h : format = "%Y-%m-%d %H:%M:%S" ∧
        ∃ time : Date × Nat, time.2 < 24 ∧ hour_key time.1 time.2 = text then
      some h.2.choose
    else none
  add_days d days := some (day_of_number (d.day_number + days))
  add_hours time hours :=
    let n := 24 * time.1.day_number + time.2 + hours
    some (day_of_number (n / 24), (n % 24).toNat)
  format_date d _ := date_key d
  format_date_time time _ := hour_key time.1 time.2

theorem calendar_documented : calendar_chrono.Documented id where
  from_ymd_opt d _ := by
    have hexists : ∃ d' : Date, d'.year = d.year ∧ d'.month = d.month ∧ d'.day = d.day :=
      ⟨d, rfl, rfl, rfl⟩
    refine ⟨hexists.choose, dif_pos hexists, ?_⟩
    obtain ⟨hyear, hmonth, hday⟩ := hexists.choose_spec
    exact Date.ext hyear hmonth hday
  from_isoywd_opt w _ :=
    ⟨_, if_pos ⟨w.week_pos, w.week_le⟩, day_number_day_of_number _⟩
  add_days x n d hd _ :=
    ⟨_, rfl, Date.day_number_inj ((day_number_day_of_number _).trans hd.symm)⟩
  format_date _ := rfl
  parse_date x := by
    have hexists : "%Y-%m-%d" = "%Y-%m-%d" ∧ ∃ d, date_key d = date_key (id x) := ⟨rfl, x, rfl⟩
    refine (dif_pos hexists).trans (congrArg some ?_)
    exact date_key_inj hexists.2.choose_spec
  parse_hour d h _ hh := by
    have hexists : "%Y-%m-%d %H:%M:%S" = "%Y-%m-%d %H:%M:%S" ∧
        ∃ time : Date × Nat, time.2 < 24 ∧ hour_key time.1 time.2 = hour_key d h :=
      ⟨rfl, (d, h), hh, rfl⟩
    exact Option.isSome_iff_exists.mpr ⟨_, dif_pos hexists⟩
  parse_literal text format _ hsome := by
    obtain ⟨time, htime⟩ := Option.isSome_iff_exists.mp hsome
    simp only [calendar_chrono, Option.dite_none_right_eq_some] at htime
    obtain ⟨⟨-, ⟨d, h⟩, -, rfl⟩, -⟩ := htime
    show ':' ∈ (date_key d ++ " " ++ Text.pad 2 h ++ ":00:00").toList
    rw [String.toList_append]
    exact List.mem_append_right _ (by decide)

end Servo
