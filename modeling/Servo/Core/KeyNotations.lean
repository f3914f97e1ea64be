import Servo.Core.NaiveDates
import Servo.Framework.TextOrder

/-! # The Notations of Keys

    The validator documents a notation for the keys of each granularity, for
    hours and weeks two: an hour may have a `T` in it, and a week may be given
    by its Monday. Every period of the years 0 to 9999 has one text in each of
    them, which denotes it and nothing else, and these texts are in the order
    of the periods.

    The canonical keys go on before the year 0 and behind the year 9999, with a
    sign in front of the year.
-/

namespace Servo

open Calendar

/-! ### Periods -/

namespace Period

/-- The hour with which the period begins. -/
def begins : Period → Int
  | .hour d h _ => 24 * d.day_number + h
  | .day d => 24 * d.day_number
  | .week w => 24 * monday w.index
  | .month m => 24 * month_start m.index
  | .year y => 24 * (days_before_year y + 1)

/-- Periods of one granularity begin in the order of their numbers. -/
theorem begins_lt_iff {p q : Period} (hg : p.granularity = q.granularity) :
    p.begins < q.begins ↔ p.index < q.index := by
  cases p with
  | hour d h hh =>
    cases q with
    | hour d' h' hh' => exact Iff.rfl
    | _ => cases hg
  | day d =>
    cases q with
    | day d' =>
      show 24 * d.day_number < 24 * d'.day_number ↔ d.day_number < d'.day_number
      omega
    | _ => cases hg
  | week w =>
    cases q with
    | week w' =>
      show 24 * (7 * w.index + 1) < 24 * (7 * w'.index + 1) ↔ w.index < w'.index
      omega
    | _ => cases hg
  | month m =>
    cases q with
    | month m' =>
      have hstart : month_start m.index < month_start m'.index ↔ m.index < m'.index :=
        (strict_mono_of_lt_succ month_start_lt).lt_iff_lt
      show 24 * month_start m.index < 24 * month_start m'.index ↔ m.index < m'.index
      omega
    | _ => cases hg
  | year y =>
    cases q with
    | year y' =>
      have hstart : days_before_year y < days_before_year y' ↔ y < y' :=
        (strict_mono_of_lt_succ days_before_year_lt).lt_iff_lt
      show 24 * (days_before_year y + 1) < 24 * (days_before_year y' + 1) ↔ y < y'
      omega
    | _ => cases hg

/-- A period of an earlier year comes first. -/
theorem index_lt_of_year_lt {p q : Period} (hg : p.granularity = q.granularity)
    (h : p.year_of < q.year_of) : p.index < q.index := by
  by_contra hnot
  have := year_of_mono hg.symm (Int.not_lt.mp hnot)
  omega

end Period

/-! ### The notations -/

/-- The key that is documented first. A year has four characters. -/
def canonical_key : Period → String
  | .year y => if y < 0 then "-" ++ Text.pad 3 y.natAbs else Text.pad 4 y.toNat
  | p => p.key

/-- The key that is documented second, where there is one. -/
noncomputable def alternative_key : Period → String
  | .hour d h _ => iso_hour_key d h
  | .week w => date_key (day_of_number (monday w.index))
  | p => canonical_key p

/-- The year with which the alternative key begins. -/
noncomputable def alternative_year : Period → Int
  | .week w => (day_of_number (monday w.index)).year
  | p => p.year_of

/-- The periods whose canonical key the validator accepts. -/
def HasKey : Period → Prop
  | .hour d _ _ | .day d => representable d.day_number
  | .week w => -2 ^ 31 ≤ w.year ∧ w.year < 2 ^ 31
  | .month m => 0 ≤ m.year ∧ m.year < 2 ^ 31
  | .year y => -999 ≤ y ∧ y ≤ 9999

/-- A year that is written without a sign. -/
def plain_year (year : Int) : Prop := 0 ≤ year ∧ year ≤ 9999

/-! ### The order of the canonical keys -/

theorem year_text_length {y : Int} (h : plain_year y) : (year_text y).length = 4 := by
  have hlow := h.1
  have hhigh := h.2
  rw [year_text_of_digits hlow hhigh, Text.length_pad (by decide) (by omega)]

theorem year_text_lt {y y' : Int} (h : plain_year y) (h' : plain_year y') (hlt : y < y') :
    year_text y < year_text y' := by
  have hlow := h.1
  have hhigh := h'.2
  rw [year_text_of_digits hlow h.2, year_text_of_digits h'.1 hhigh]
  exact Text.pad_lt_pad (by decide) (by omega) (by omega)

theorem length_pad_two {n : Nat} (h : n < 100) : (Text.pad 2 n).length = 2 :=
  Text.length_pad (by decide) h

/-- A year, and a number of two digits behind it. -/
theorem year_field_lt {sep : String} {y y' : Int} {n n' : Nat} (hy : plain_year y)
    (hy' : plain_year y') (hn' : n' < 100) (h : y < y' ∨ y = y' ∧ n < n') :
    year_text y ++ sep ++ Text.pad 2 n < year_text y' ++ sep ++ Text.pad 2 n' := by
  have hlength : (year_text y).length = (year_text y').length := by
    rw [year_text_length hy, year_text_length hy']
  rcases h with h | ⟨rfl, h⟩
  · refine Text.append_lt_of_lt ?_ (Text.append_lt_of_lt hlength (year_text_lt hy hy' h))
    rw [String.length_append, String.length_append,
      hlength]
  · exact Text.append_left_lt_iff.mpr (Text.pad_lt_pad (by decide) h hn')

theorem month_key_lt {m m' : Month} (h : plain_year m.year) (h' : plain_year m'.year)
    (hlt : m.index < m'.index) : (Period.month m).key < (Period.month m').key := by
  have hmonth := m.month_le
  have hmonth' := m'.month_le
  have hpos := m.month_pos
  have hpos' := m'.month_pos
  refine year_field_lt h h' (by omega) ?_
  unfold Month.index at hlt
  omega

theorem month_key_length {m : Month} (h : plain_year m.year) :
    (Period.month m).key.length = 7 := by
  have hmonth := m.month_le
  show (year_text m.year ++ "-" ++ Text.pad 2 m.month).length = 7
  rw [String.length_append, String.length_append,
    year_text_length h, length_pad_two (by omega)]
  rfl

theorem date_key_lt {d d' : Date} (h : plain_year d.year) (h' : plain_year d'.year)
    (hlt : d.day_number < d'.day_number) : date_key d < date_key d' := by
  have hlength : (Period.month d.toMonth).key.length =
      (Period.month d'.toMonth).key.length := by
    rw [month_key_length h, month_key_length h']
  have hdash : ((Period.month d.toMonth).key ++ "-").length =
      ((Period.month d'.toMonth).key ++ "-").length := by
    rw [String.length_append, String.length_append, hlength]
  show (Period.month d.toMonth).key ++ "-" ++ Text.pad 2 d.day <
    (Period.month d'.toMonth).key ++ "-" ++ Text.pad 2 d'.day
  by_cases hm : d.index < d'.index
  · exact Text.append_lt_of_lt hdash (Text.append_lt_of_lt hlength (month_key_lt h h' hm))
  · -- not a later month, and so the same
    have hsame : d.toMonth = d'.toMonth := by
      apply Month.index_inj
      by_contra hne
      have hlater : d'.index + 1 ≤ d.index := by omega
      have hstart := (strict_mono_of_lt_succ month_start_lt).monotone hlater
      have hlow := d.month_start_le
      have hhigh := d'.lt_month_start
      omega
    have hle' := d'.day_le
    have hdays := days_in_month_le d'.year d'.month
    have hpos := d.day_pos
    have hday : d.day < d'.day := by
      unfold Date.day_number at hlt
      rw [hsame] at hlt
      omega
    rw [hsame]
    exact Text.append_left_lt_iff.mpr (Text.pad_lt_pad (by decide) hday (by omega))

theorem date_key_length {d : Date} (h : plain_year d.year) : (date_key d).length = 10 := by
  have hday := d.day_le
  have hdays := days_in_month_le d.year d.month
  have hmonth := month_key_length h
  show ((Period.month d.toMonth).key ++ "-" ++ Text.pad 2 d.day).length = 10
  rw [String.length_append, String.length_append, hmonth,
    length_pad_two (by omega)]
  rfl

/-- A date, and an hour behind it. -/
theorem date_hour_lt {sep : String} {d d' : Date} {h h' : Nat} (hd : plain_year d.year)
    (hd' : plain_year d'.year) (hh : h < 24) (hh' : h' < 24)
    (hlt : 24 * d.day_number + h < 24 * d'.day_number + h') :
    date_key d ++ sep ++ Text.pad 2 h ++ ":00:00" <
      date_key d' ++ sep ++ Text.pad 2 h' ++ ":00:00" := by
  have hlength : (date_key d ++ sep).length = (date_key d' ++ sep).length := by
    rw [String.length_append, String.length_append,
      date_key_length hd, date_key_length hd']
  have hwhole : (date_key d ++ sep ++ Text.pad 2 h).length =
      (date_key d' ++ sep ++ Text.pad 2 h').length := by
    rw [@String.length_append (_ ++ _), @String.length_append (_ ++ _), hlength,
      length_pad_two (by omega), length_pad_two (by omega)]
  apply Text.append_lt_of_lt hwhole
  by_cases hday : d.day_number < d'.day_number
  · refine Text.append_lt_of_lt hlength (Text.append_lt_of_lt ?_ (date_key_lt hd hd' hday))
    rw [date_key_length hd, date_key_length hd']
  · have hsame : d = d' := Date.day_number_inj (by omega)
    subst hsame
    exact Text.append_left_lt_iff.mpr (Text.pad_lt_pad (by decide) (by omega) (by omega))

theorem week_key_lt {w w' : Week} (h : plain_year w.year) (h' : plain_year w'.year)
    (hlt : w.index < w'.index) : (Period.week w).key < (Period.week w').key := by
  have hweek := w.week_le
  have hweek' := w'.week_le
  have hpos := w.week_pos
  have hpos' := w'.week_pos
  have hbound := (first_week_succ w'.year).2.2
  refine year_field_lt h h' (by omega) ?_
  by_cases hyear : w.year < w'.year
  · exact .inl hyear
  · have hsame : w.year = w'.year := by
      have := Period.year_of_mono (p := .week w) (q := .week w') rfl (Int.le_of_lt hlt)
      have hle : w.year ≤ w'.year := this
      omega
    unfold Week.index at hlt
    rw [hsame] at hlt
    exact .inr ⟨hsame, by omega⟩

/-- **Canonical keys are in the order of the periods**, for years without a sign. -/
theorem canonical_key_lt {p q : Period} (hg : p.granularity = q.granularity)
    (hp : plain_year p.year_of) (hq : plain_year q.year_of) (hlt : p.index < q.index) :
    canonical_key p < canonical_key q := by
  cases p with
  | hour d h hh =>
    cases q with
    | hour d' h' hh' => exact date_hour_lt hp hq hh hh' hlt
    | _ => cases hg
  | day d =>
    cases q with
    | day d' => exact date_key_lt hp hq hlt
    | _ => cases hg
  | week w =>
    cases q with
    | week w' => exact week_key_lt hp hq hlt
    | _ => cases hg
  | month m =>
    cases q with
    | month m' => exact month_key_lt hp hq hlt
    | _ => cases hg
  | year y =>
    cases q with
    | year y' =>
      have hlow : 0 ≤ y := hp.1
      have hhigh : y' ≤ 9999 := hq.2
      have hyears : y < y' := hlt
      show (if y < 0 then _ else _) < (if y' < 0 then _ else _)
      rw [if_neg (by omega), if_neg (by omega)]
      exact Text.pad_lt_pad (by decide) (by omega) (by omega)
    | _ => cases hg

/-- The same for the other notation. -/
theorem alternative_key_lt {p q : Period} (hg : p.granularity = q.granularity)
    (hp : plain_year (alternative_year p)) (hq : plain_year (alternative_year q))
    (hlt : p.index < q.index) : alternative_key p < alternative_key q := by
  cases p with
  | hour d h hh =>
    cases q with
    | hour d' h' hh' => exact date_hour_lt hp hq hh hh' hlt
    | _ => cases hg
  | week w =>
    cases q with
    | week w' =>
      refine date_key_lt hp hq ?_
      have hweeks : w.index < w'.index := hlt
      rw [day_number_day_of_number, day_number_day_of_number]
      unfold monday
      omega
    | _ => cases hg
  | day d =>
    cases q with
    | day d' => exact canonical_key_lt hg hp hq hlt
    | _ => cases hg
  | month m =>
    cases q with
    | month m' => exact canonical_key_lt hg hp hq hlt
    | _ => cases hg
  | year y =>
    cases q with
    | year y' => exact canonical_key_lt hg hp hq hlt
    | _ => cases hg

/-! ### Years with a sign -/

/-- Digits in the year of a canonical key, at least, if it is negative. -/
def year_width : TimeGranularity → Nat
  | .Yearly => 3
  | _ => 4

/-- The year in front of a canonical key. -/
def year_part : Period → String
  | .year y => canonical_key (.year y)
  | p => year_text p.year_of

theorem canonical_key_eq (p : Period) : ∃ rest, canonical_key p = year_part p ++ rest := by
  cases p with
  | hour d h hh =>
    refine ⟨"-" ++ Text.pad 2 d.month ++ "-" ++ Text.pad 2 d.day ++ " " ++ Text.pad 2 h ++
      ":00:00", ?_⟩
    show date_key d ++ " " ++ Text.pad 2 h ++ ":00:00" = year_text d.year ++ _
    unfold date_key
    simp only [String.append_assoc]
  | day d =>
    refine ⟨"-" ++ Text.pad 2 d.month ++ "-" ++ Text.pad 2 d.day, ?_⟩
    show date_key d = year_text d.year ++ _
    unfold date_key
    simp only [String.append_assoc]
  | week w => exact ⟨"-W" ++ Text.pad 2 w.week, String.append_assoc⟩
  | month m => exact ⟨"-" ++ Text.pad 2 m.month, String.append_assoc⟩
  | year y => exact ⟨"", String.append_empty.symm⟩

theorem plain_front {p : Period} (h : plain_year p.year_of) :
    ∃ rest, canonical_key p = Text.pad 4 p.year_of.toNat ++ rest := by
  obtain ⟨rest, heq⟩ := canonical_key_eq p
  refine ⟨rest, heq.trans (congrArg (· ++ rest) ?_)⟩
  cases p with
  | year y =>
    have hlow : 0 ≤ y := h.1
    show (if y < 0 then _ else _) = _
    rw [if_neg (by omega)]
    rfl
  | _ => exact year_text_of_digits h.1 h.2

theorem negative_front {p : Period} (h : p.year_of < 0) : ∃ rest, canonical_key p =
    "-" ++ (Text.pad (year_width p.granularity) p.year_of.natAbs ++ rest) := by
  obtain ⟨rest, heq⟩ := canonical_key_eq p
  refine ⟨rest, ?_⟩
  rw [heq, ← String.append_assoc]
  refine congrArg (· ++ rest) ?_
  have htext : year_text p.year_of = "-" ++ Text.pad 4 p.year_of.natAbs := by
    rw [year_text, if_neg (by omega), if_pos h]
  cases p with
  | year y => exact if_pos h
  | _ => exact htext

theorem above_front {p : Period} (hkey : HasKey p) (h : 9999 < p.year_of) :
    ∃ rest, canonical_key p = "+" ++ rest := by
  obtain ⟨rest, heq⟩ := canonical_key_eq p
  have htext : year_text p.year_of = "+" ++ Text.pad 4 p.year_of.natAbs := by
    rw [year_text, if_neg (by omega), if_neg (by omega)]
  cases p with
  | year y =>
    have hhigh : y ≤ 9999 := hkey.2
    have hyear : 9999 < y := h
    omega
  | _ => exact ⟨_, by rw [heq, ← String.append_assoc]; exact congrArg (· ++ rest) htext⟩

/-- A key with a sign comes before the keys without one. -/
theorem signed_lt_plain {q : Period} {sign : String} {c : Char} (hsign : sign.toList = [c])
    (hc : c.toNat < 48) (hq : plain_year q.year_of) (rest : String) :
    sign ++ rest < canonical_key q := by
  obtain ⟨rest', heq⟩ := plain_front hq
  have hne := Text.toList_pad_ne_nil 4 q.year_of.toNat
  obtain ⟨digit, digits, hlist⟩ := List.exists_cons_of_ne_nil hne
  refine @Text.lt_of_head_lt _ _ c digit ?_ ?_ ?_
  · rw [String.toList_append, hsign]
    rfl
  · rw [heq, Text.head_append hne, hlist]
    rfl
  · have hmem : digit ∈ (Text.pad 4 q.year_of.toNat).toList := by
      rw [hlist]
      exact List.mem_cons_self
    have hdigit := Text.digit_bounds (Text.mem_pad hmem)
    exact Text.char_lt_iff.mpr (by omega)

/-- Negative years come first. -/
theorem negative_lt_plain {p q : Period} (hp : p.year_of < 0) (hq : plain_year q.year_of) :
    canonical_key p < canonical_key q := by
  obtain ⟨rest, heq⟩ := negative_front hp
  rw [heq]
  exact signed_lt_plain rfl (by decide) hq _

/-- Years of more digits come first as well. -/
theorem above_lt_plain {p q : Period} (hkey : HasKey p) (hp : 9999 < p.year_of)
    (hq : plain_year q.year_of) : canonical_key p < canonical_key q := by
  obtain ⟨rest, heq⟩ := above_front hkey hp
  rw [heq]
  exact signed_lt_plain rfl (by decide) hq _

/-- Of negative years, the ones before the year 0 come first. -/
theorem negative_lt_negative {p q : Period} (hg : p.granularity = q.granularity)
    (hp : p.year_of < 0) (hp' : -99 ≤ p.year_of) (hlt : q.year_of < p.year_of) :
    canonical_key p < canonical_key q := by
  obtain ⟨rest, heq⟩ := negative_front hp
  obtain ⟨rest', heq'⟩ := negative_front (show q.year_of < 0 by omega)
  rw [heq, heq', hg]
  have hsmall : p.year_of.natAbs < 10 ^ (year_width q.granularity - 1) := by
    cases q.granularity <;> simp only [year_width] <;> omega
  have hwidth : 1 < year_width q.granularity := by
    cases q.granularity <;> decide
  exact Text.append_left_lt_iff.mpr (Text.pad_append_lt hwidth hsmall (by omega))

end Servo
