import Servo.Core.NaiveDates
import Servo.Framework.Scan

/-! # A Calendar with a First and a Last Day

    The functions that `chrono` documents, on the representable days: dates
    and times are read number by number, as their formats say, and what would
    leave the range has no result.
-/

namespace Servo

open Calendar Scan

/-! ### Dates and times -/

/-- A date that is represented. -/
structure RepresentableDate where
  date : Date
  representable : representable date.day_number

/-- A time; the second 60 is a leap second. -/
structure RepresentableTime where
  day : RepresentableDate
  hour : Nat
  minute : Nat
  second : Nat
  hour_lt : hour < 24

namespace RepresentableTime

def hours (time : RepresentableTime) : Int := 24 * time.day.date.day_number + time.hour

def is_last_leap_second (time : RepresentableTime) : Bool :=
  time.minute = 59 && time.second = 60

def leap_hours (time : RepresentableTime) : Int :=
  if time.is_last_leap_second then time.hours + 1 else time.hours

end RepresentableTime

/-- The date of a day, if it is represented. -/
noncomputable def day_opt (n : Int) : Option RepresentableDate :=
  if h : representable n then some ⟨day_of_number n, by rwa [day_number_day_of_number]⟩ else none

/-- The date with these numbers, if there is one and it is represented. -/
def ymd_opt (year : Int) (month day : Nat) : Option RepresentableDate :=
  if h : (1 ≤ month ∧ month ≤ 12) ∧ (1 ≤ day ∧ day ≤ Calendar.days_in_month year month) ∧
      -262143 ≤ year ∧ year ≤ 262142 then
    some ⟨⟨⟨year, month, h.1.1, h.1.2⟩, day, h.2.1.1, h.2.1.2⟩, representable_iff_year.mpr h.2.2⟩
  else none

/-! ### Formats -/

/-- "%Y-%m-%d". -/
def date_items : List Item :=
  [.number 4 true, .literal '-', .number 2 false, .literal '-', .number 2 false]

/-- "%H:%M:%S". -/
def clock_items : List Item :=
  [.number 2 false, .literal ':', .number 2 false, .literal ':', .number 2 false]

/-- The items of the formats for times. -/
def time_items (format : String) : Option (List Item) :=
  if format = "%Y-%m-%d %H:%M:%S" then some (date_items ++ .blanks :: clock_items)
  else if format = "%Y-%m-%dT%H:%M:%S" then some (date_items ++ .literal 'T' :: clock_items)
  else none

def date_of_numbers : List Int → Option RepresentableDate
  | [year, month, day] => ymd_opt year month.toNat day.toNat
  | _ => none

def time_of_numbers : List Int → Option RepresentableTime
  | [year, month, day, hour, minute, second] =>
    (ymd_opt year month.toNat day.toNat).bind fun date =>
      if h : hour.toNat < 24 then
        if minute < 60 ∧ second ≤ 60 then some ⟨date, hour.toNat, minute.toNat, second.toNat, h⟩
        else none
      else none
  | _ => none

/-- The calendar with a first and a last day. A time without minutes is not read. -/
noncomputable def bounded_chrono : Chrono RepresentableDate RepresentableTime where
  from_ymd_opt := ymd_opt
  from_isoywd_opt year week :=
    if 1 ≤ week ∧ week ≤ weeks_in_year year then
      day_opt (monday (first_week year + (week - 1 : Nat)))
    else none
  parse_date text format :=
    if format = "%Y-%m-%d" then
      (read is_whitespace date_items text.toList).bind date_of_numbers
    else none
  parse_date_time text format :=
    (time_items format).bind fun items =>
      (read is_whitespace items text.toList).bind time_of_numbers
  add_days x days := day_opt (x.date.day_number + days)
  add_hours time hours :=
    let n := counted_hour RepresentableTime.hours RepresentableTime.leap_hours time hours
    (day_opt (n / 24)).map fun day =>
      -- a leap second becomes the second after it, or the one before it
      let minute := if hours < 0 ∧ time.second = 60 then (time.minute + 1) % 60 else time.minute
      let second :=
        if hours = 0 ∨ time.second ≠ 60 then time.second else if hours < 0 then 0 else 59
      ⟨day, (n % 24).toNat, minute, second, by omega⟩
  format_date x _ := date_key x.date
  format_date_time time _ := hour_key time.day.date time.hour

/-! ### Reading back -/

theorem blank_is_no_number (c : Char) (h : is_whitespace c = true) :
    c.isDigit = false ∧ c ≠ '-' ∧ c ≠ '+' := by
  have hdigit : c.isDigit = true → 48 ≤ c.toNat ∧ c.toNat ≤ 57 := by
    intro hd
    simp only [Char.isDigit, Bool.and_eq_true, decide_eq_true_eq] at hd
    exact ⟨UInt32.le_iff_toNat_le.mp hd.1, UInt32.le_iff_toNat_le.mp hd.2⟩
  simp only [is_whitespace, Bool.or_eq_true, Bool.and_eq_true, decide_eq_true_eq] at h
  refine ⟨?_, ?_, ?_⟩
  · by_contra hd
    have := hdigit (by simpa using hd)
    omega
  · rintro rfl
    revert h
    decide
  · rintro rfl
    revert h
    decide

theorem read_year_text (y : Int) (items : List Item) (rest : List Char) :
    read is_whitespace (.number 4 true :: .literal '-' :: items)
        ((year_text y).toList ++ '-' :: rest) =
      (read is_whitespace items rest).map (y :: ·) := by
  have hliteral : read is_whitespace (.literal '-' :: items) ('-' :: rest) =
      read is_whitespace items rest := read_literal '-' items rest
  unfold year_text
  split
  · next h =>
    rw [read_pad blank_is_no_number (by decide) (by omega), hliteral, Int.toNat_of_nonneg h.1]
  · next h =>
    have hhead : ∀ c ∈ ('-' :: rest).head?, c.isDigit = false := by
      intro c hc
      cases hc
      decide
    have hread := @read_signed is_whitespace blank_is_no_number 4 y.natAbs 4
      (.literal '-' :: items) ('-' :: rest) hhead
    rw [hliteral] at hread
    by_cases hneg : y < 0
    · rw [if_pos hneg, String.toList_append]
      show read is_whitespace _ ('-' :: ((Text.pad 4 y.natAbs).toList ++ '-' :: rest)) = _
      rw [hread.1, show -((y.natAbs : Nat) : Int) = y by omega]
    · rw [if_neg hneg, String.toList_append]
      show read is_whitespace _ ('+' :: ((Text.pad 4 y.natAbs).toList ++ '-' :: rest)) = _
      rw [hread.2, show ((y.natAbs : Nat) : Int) = y by omega]

/-- A number of two digits, and a character behind it. -/
theorem read_two_digits {n : Nat} (hn : n < 100) (c : Char) (items : List Item)
    (rest : List Char) :
    read is_whitespace (.number 2 false :: .literal c :: items)
        ((Text.pad 2 n).toList ++ c :: rest) =
      (read is_whitespace items rest).map ((n : Int) :: ·) := by
  rw [read_pad blank_is_no_number (by decide) hn, read_literal]

theorem read_date_key (d : Date) (items : List Item) (rest : List Char) :
    read is_whitespace (date_items ++ items) ((date_key d).toList ++ rest) =
      (read is_whitespace items rest).map fun values =>
        d.year :: (d.month : Int) :: (d.day : Int) :: values := by
  have hmonth := d.month_le
  have hday := d.day_le
  have hdays := days_in_month_le d.year d.month
  have htext : (date_key d).toList ++ rest = (year_text d.year).toList ++
      '-' :: ((Text.pad 2 d.month).toList ++ '-' :: ((Text.pad 2 d.day).toList ++ rest)) := by
    simp [date_key]
  rw [htext]
  show read is_whitespace (.number 4 true :: .literal '-' :: .number 2 false :: .literal '-' ::
    .number 2 false :: items) _ = _
  rw [read_year_text, read_two_digits (by omega), read_pad blank_is_no_number (by decide)
    (show d.day < 10 ^ 2 by omega), Option.map_map, Option.map_map]
  rfl

theorem read_spaced_key (d : Date) : read is_whitespace date_items (spaced_key d).toList =
    some [d.year, (d.month : Int), (d.day : Int)] := by
  have hmonth := d.month_le
  have hday := d.day_le
  have hdays := days_in_month_le d.year d.month
  have htext : (spaced_key d).toList = (year_text d.year).toList ++
      '-' :: ' ' :: ((Text.pad 2 d.month).toList ++ '-' :: ((Text.pad 2 d.day).toList ++ [])) := by
    simp [spaced_key]
  rw [htext, date_items, read_year_text, read_number_blank (by decide), read_two_digits (by omega),
    read_pad blank_is_no_number (by decide) (show d.day < 10 ^ 2 by omega)]
  rfl

theorem read_clock {h : Nat} (hh : h < 24) :
    read is_whitespace clock_items ((Text.pad 2 h).toList ++ ":00:00".toList) =
      some [(h : Int), 0, 0] := by
  show read is_whitespace _ ((Text.pad 2 h).toList ++ ':' :: "00:00".toList) = _
  rw [clock_items, read_two_digits (by omega)]
  rfl

/-- The date is found again. -/
theorem ymd_opt_eq {x : RepresentableDate} {year : Int} {month day : Nat} :
    ymd_opt year month day = some x ↔
      x.date.year = year ∧ x.date.month = month ∧ x.date.day = day := by
  unfold ymd_opt
  constructor
  · intro h
    split at h
    · cases h
      exact ⟨rfl, rfl, rfl⟩
    · cases h
  · obtain ⟨d, hd⟩ := x
    rintro ⟨rfl, rfl, rfl⟩
    have hyear := representable_iff_year.mp hd
    rw [dif_pos ⟨⟨d.month_pos, d.month_le⟩, ⟨d.day_pos, d.day_le⟩, hyear⟩]

theorem day_opt_eq {x : RepresentableDate} {n : Int} :
    day_opt n = some x ↔ x.date.day_number = n := by
  unfold day_opt
  constructor
  · intro h
    split at h
    · cases h
      exact day_number_day_of_number n
    · cases h
  · rintro rfl
    rw [dif_pos x.representable]
    obtain ⟨d, hd⟩ := x
    have heq : day_of_number d.day_number = d :=
      Date.day_number_inj (day_number_day_of_number _)
    simp only [heq]

theorem day_opt_isSome {n : Int} : (day_opt n).isSome ↔ representable n := by
  unfold day_opt
  by_cases h : representable n <;> simp [h]

theorem parse_hour_of_items {text : String} {format : String} {items : List Item}
    (hformat : time_items format = some items) {d : Date} {h : Nat}
    (hd : representable d.day_number) (hh : h < 24)
    (hread : read is_whitespace items text.toList =
      some [d.year, (d.month : Int), (d.day : Int), (h : Int), 0, 0]) :
    ∃ time, bounded_chrono.parse_date_time text format = some time ∧
      time.hours = 24 * d.day_number + h := by
  have hymd : ymd_opt d.year d.month d.day = some ⟨d, hd⟩ := ymd_opt_eq.mpr ⟨rfl, rfl, rfl⟩
  refine ⟨⟨⟨d, hd⟩, h, 0, 0, hh⟩, ?_, rfl⟩
  show (time_items format).bind _ = _
  rw [hformat, Option.bind_some, hread, Option.bind_some]
  simp [time_of_numbers, hymd, hh]

/-- What has been read of a text, and the characters that stand for themselves in its format. -/
theorem read_of_parse_date_time {text format : String}
    (h : (bounded_chrono.parse_date_time text format).isSome) :
    ∃ items values, read is_whitespace items text.toList = some values ∧
      0 < items.count (.literal ':') ∧ ∀ c, Item.literal c ∈ items →
        c = '-' ∨ c = ':' ∨ c = 'T' ∧ 'T' ∈ format.toList := by
  obtain ⟨time, htime⟩ := Option.isSome_iff_exists.mp h
  obtain ⟨items, hitems, hbind⟩ := Option.bind_eq_some_iff.mp htime
  obtain ⟨values, hread, -⟩ := Option.bind_eq_some_iff.mp hbind
  refine ⟨items, values, hread, ?_⟩
  unfold time_items at hitems
  split at hitems
  · cases hitems
    refine ⟨by decide, ?_⟩
    intro c hliteral
    simp [date_items, clock_items] at hliteral
    tauto
  · split at hitems
    · next hT =>
      cases hitems
      subst hT
      refine ⟨by decide, ?_⟩
      intro c hliteral
      simp [date_items, clock_items] at hliteral
      simp
      tauto
    · cases hitems

theorem bounded_exact : bounded_chrono.Exact RepresentableDate.date RepresentableTime.hours
    RepresentableTime.leap_hours where
  date_representable x := x.representable
  exists_date d h := ⟨⟨d, h⟩, rfl⟩
  from_ymd_opt _ _ _ _ := ymd_opt_eq
  from_isoywd_opt year week x := by
    show (if _ then _ else _) = _ ↔ _
    split
    · next h =>
      rw [day_opt_eq]
      constructor
      · intro hx
        exact ⟨⟨year, week, h.1, h.2⟩, rfl, rfl, hx⟩
      · rintro ⟨w, rfl, rfl, hx⟩
        exact hx
    · next h =>
      refine iff_of_false nofun ?_
      rintro ⟨w, rfl, rfl, -⟩
      exact h ⟨w.week_pos, w.week_le⟩
  add_days _ _ _ := day_opt_eq
  hour_representable time := by
    have hlt := time.hour_lt
    have hday : time.hours / 24 = time.day.date.day_number := by
      unfold RepresentableTime.hours
      omega
    rw [hday]
    exact time.day.representable
  leap_hour_le time := by
    unfold RepresentableTime.leap_hours
    split <;> omega
  add_hours_isSome time n := by
    show ((day_opt _).map _).isSome ↔ _
    rw [Option.isSome_map, day_opt_isSome]
  add_hours time n time' h := by
    obtain ⟨day, hday, rfl⟩ := Option.map_eq_some_iff.mp h
    have hnumber := day_opt_eq.mp hday
    show 24 * day.date.day_number + ((counted_hour RepresentableTime.hours
      RepresentableTime.leap_hours time n % 24).toNat : Int) = _
    rw [hnumber]
    omega
  format_date _ := rfl
  format_hour time d h hh heq := by
    have hlt := time.hour_lt
    have hsum : 24 * time.day.date.day_number + (time.hour : Int) = 24 * d.day_number + h := heq
    have hday : time.day.date = d := Date.day_number_inj (by omega)
    have hhour : time.hour = h := by
      rw [hday] at hsum
      omega
    show hour_key time.day.date time.hour = _
    rw [hday, hhour]
  parse_date x := by
    have hread := read_date_key x.date [] []
    rw [List.append_nil, List.append_nil] at hread
    show (read is_whitespace date_items _).bind date_of_numbers = _
    rw [hread]
    exact ymd_opt_eq.mpr ⟨rfl, rfl, rfl⟩
  parse_spaced x := by
    show (read is_whitespace date_items _).bind date_of_numbers = _
    rw [read_spaced_key]
    exact ymd_opt_eq.mpr ⟨rfl, rfl, rfl⟩
  parse_date_chars text h := by
    obtain ⟨x, hx⟩ := Option.isSome_iff_exists.mp h
    obtain ⟨values, hread, -⟩ := Option.bind_eq_some_iff.mp
      (show (read is_whitespace date_items text.toList).bind date_of_numbers = some x from hx)
    refine ⟨fun c hc => ?_, count_literal_le hread '-'⟩
    have hchar := mem_of_read hread c hc
    have hliteral : Item.literal c ∈ date_items → c = '-' := by simp [date_items]
    simp only [is_date_char, Bool.or_eq_true, decide_eq_true_eq]
    tauto
  parse_hour d h hd hh := by
    refine parse_hour_of_items (show time_items "%Y-%m-%d %H:%M:%S" =
      some (date_items ++ .blanks :: clock_items) from rfl) hd hh ?_
    have htext : (hour_key d h).toList = (date_key d).toList ++
        ' ' :: ((Text.pad 2 h).toList ++ ":00:00".toList) := by
      simp [hour_key]
    rw [htext, read_date_key, read_blanks_blank (by decide), clock_items, read_blanks_number,
      ← clock_items, read_clock hh]
    rfl
  parse_iso_hour d h hd hh := by
    refine parse_hour_of_items (show time_items "%Y-%m-%dT%H:%M:%S" =
      some (date_items ++ .literal 'T' :: clock_items) from rfl) hd hh ?_
    have htext : (iso_hour_key d h).toList = (date_key d).toList ++
        'T' :: ((Text.pad 2 h).toList ++ ":00:00".toList) := by
      simp [iso_hour_key]
    rw [htext, read_date_key, read_literal, read_clock hh]
    rfl
  parse_time_chars text format hformat h c hc := by
    obtain ⟨items, values, hread, -, hliterals⟩ := read_of_parse_date_time h
    have hchar := mem_of_read hread c hc
    have hliteral := hliterals c
    simp only [is_date_char, Bool.or_eq_true, decide_eq_true_eq]
    tauto
  parse_literal text format _ h := by
    obtain ⟨items, values, hread, hitem, -⟩ := read_of_parse_date_time h
    exact List.count_pos_iff.mp (hitem.trans_le (count_literal_le hread ':'))

end Servo
