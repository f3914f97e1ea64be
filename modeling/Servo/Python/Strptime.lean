import Servo.Framework.TextOrder
import Servo.Python.Dates
import Servo.Python.Numerals
import Mathlib.Tactic.IntervalCases

/-! # Reading Dates in Python

    `strptime` makes a regular expression of its format. A directive stands for
    several alternatives, which are tried in their order, and capitals do not
    matter. What has been matched must be the whole text. The expressions take
    numbers without their zeros, days after a blank, and the digits of all
    scripts, so they take more than what `strftime` writes.
-/

namespace Servo.Python

/-- A set of characters in the expression. -/
inductive CharSet where
  /-- `[low-high]`. -/
  | between (low high : Char)
  /-- `\d`. -/
  | decimal

namespace CharSet

variable (numerals : Numerals)

def contains (c : Char) : CharSet → Bool
  | between low high => low ≤ c && c ≤ high
  | decimal => (numerals.decimal c).isSome

end CharSet

/-- The alternatives for the directives of the default formats. -/
def alternatives : Char → List (List CharSet)
  | 'Y' => [[.decimal, .decimal, .decimal, .decimal]]
  | 'm' => [[.between '1' '1', .between '0' '2'], [.between '0' '0', .between '1' '9'],
      [.between '1' '9']]
  | 'd' => [[.between '3' '3', .between '0' '1'], [.between '1' '2', .decimal],
      [.between '0' '0', .between '1' '9'], [.between '1' '9'],
      [.between ' ' ' ', .between '1' '9']]
  | 'H' => [[.between '2' '2', .between '0' '3'], [.between '0' '1', .decimal], [.decimal]]
  | _ => []

section strptime

variable (numerals : Numerals)

/-- What one alternative takes off the front, and the rest. -/
def take_sets : List CharSet → List Char → Option (List Char × List Char)
  | [], text => some ([], text)
  | set :: sets, c :: text =>
    if set.contains numerals c then (take_sets sets text).map fun p => (c :: p.1, p.2) else none
  | _ :: _, [] => none

/-- What a directive takes off the front, in the order in which it is tried. -/
def take_directive (directive : Char) (text : List Char) : List (List Char × List Char) :=
  (alternatives directive).filterMap fun sets => take_sets numerals sets text

/-- The groups of a match, by their directives. -/
abbrev Groups := List (Char × List Char)

/-- What the expression is made of. -/
inductive FormatItem where
  | directive (c : Char)
  | literal (c : Char)
  deriving DecidableEq

/-- The items of a format. -/
def format_items : List Char → List FormatItem
  | '%' :: c :: format => .directive c :: format_items format
  | c :: format => .literal c :: format_items format
  | [] => []

/-- All matches at the front, in the order in which they are tried, each with the rest. -/
def matches_at_front : List FormatItem → List Char → List (Groups × List Char)
  | [], text => [([], text)]
  | .directive c :: items, text => (take_directive numerals c text).flatMap fun p =>
      (matches_at_front items p.2).map fun q => ((c, p.1) :: q.1, q.2)
  | .literal _ :: _, [] => []
  | .literal c :: items, d :: text =>
    -- `re.IGNORECASE`
    if c.toLower = d.toLower then matches_at_front items text else []

/-- The value of a group, or the default where the format has no such directive. -/
def group_value (groups : Groups) (directive : Char) (default : Int) : Option Int :=
  match groups.lookup directive with
  | some group => numerals.int group
  | none => some default

/-- `datetime(year, month, day, hour)`. -/
def datetime_of_groups (groups : Groups) : Option Datetime := do
  let year ← group_value numerals groups 'Y' 1900
  let month ← group_value numerals groups 'm' 1
  let day ← group_value numerals groups 'd' 1
  let hour ← group_value numerals groups 'H' 0
  let date ← date year month.toNat day.toNat
  if h : hour.toNat < 24 then some ⟨date, hour.toNat * 3600000000, by omega⟩ else none

/-- `datetime.strptime`; `none` is a `ValueError`. -/
def strptime (text format : String) : Option Datetime :=
  match (matches_at_front numerals (format_items format.toList) text.toList).head? with
  | some (groups, []) => datetime_of_groups numerals groups
  -- unconverted data remains
  | some (_, _ :: _) => none
  | none => none

end strptime

/-! ### What has been read -/

section groups

variable {numerals : Numerals}

/-- A text that one of the alternatives for the directive takes. -/
def IsGroup (numerals : Numerals) (directive : Char) (group : List Char) : Prop :=
  ∃ sets ∈ alternatives directive,
    List.Forall₂ (fun set c => CharSet.contains numerals c set = true) sets group

/-- The longest group of a directive. -/
def group_width (directive : Char) : Nat := if directive = 'Y' then 4 else 2

theorem take_sets_eq_some_iff {sets : List CharSet} {text group rest : List Char} :
    take_sets numerals sets text = some (group, rest) ↔
      List.Forall₂ (fun set c => CharSet.contains numerals c set = true) sets group ∧
        text = group ++ rest := by
  induction sets generalizing text group with
  | nil =>
    have hnil : take_sets numerals [] text = some ([], text) := by cases text <;> rfl
    rw [hnil]
    constructor
    · intro h
      cases h
      exact ⟨.nil, rfl⟩
    · intro h
      obtain ⟨hsets, rfl⟩ := h
      cases hsets
      rfl
  | cons set sets ih =>
    cases text with
    | nil =>
      apply iff_of_false
      · simp [take_sets]
      · intro h
        obtain ⟨hsets, htext⟩ := h
        cases hsets
        simp at htext
    | cons c text =>
      rw [take_sets]
      by_cases hc : set.contains numerals c = true
      · rw [if_pos hc, Option.map_eq_some_iff]
        constructor
        · intro h
          obtain ⟨⟨group', rest'⟩, htaken, heq⟩ := h
          cases heq
          obtain ⟨hsets, rfl⟩ := ih.mp htaken
          exact ⟨.cons hc hsets, rfl⟩
        · intro h
          obtain ⟨hsets, htext⟩ := h
          cases hsets with
          | @cons _ d _ group' _ hsets =>
            obtain ⟨rfl, rfl⟩ := List.cons.inj htext
            exact ⟨(group', rest), ih.mpr ⟨hsets, rfl⟩, rfl⟩
      · rw [if_neg hc]
        apply iff_of_false
        · simp
        · intro h
          obtain ⟨hsets, htext⟩ := h
          cases hsets with
          | cons hd _ =>
            obtain ⟨rfl, -⟩ := List.cons.inj htext
            exact hc hd

/-- A match begins with a group of the first directive. -/
theorem mem_matches_directive {directive : Char} {items : List FormatItem} {text : List Char}
    {p : Groups × List Char}
    (h : p ∈ matches_at_front numerals (.directive directive :: items) text) :
    ∃ group rest, IsGroup numerals directive group ∧ text = group ++ rest ∧
      ∃ q ∈ matches_at_front numerals items rest, p = ((directive, group) :: q.1, q.2) := by
  rw [matches_at_front, List.mem_flatMap] at h
  obtain ⟨⟨group, rest⟩, htaken, h⟩ := h
  obtain ⟨sets, hsets, htaken⟩ := List.mem_filterMap.mp htaken
  obtain ⟨q, hq, rfl⟩ := List.mem_map.mp h
  obtain ⟨hgroup, htext⟩ := take_sets_eq_some_iff.mp htaken
  exact ⟨group, rest, ⟨sets, hsets, hgroup⟩, htext, q, hq, rfl⟩

/-- A literal is matched in capitals or not. -/
theorem mem_matches_literal {literal : Char} {items : List FormatItem} {text : List Char}
    {p : Groups × List Char}
    (h : p ∈ matches_at_front numerals (.literal literal :: items) text) :
    ∃ c rest, literal.toLower = c.toLower ∧ text = c :: rest ∧
      p ∈ matches_at_front numerals items rest := by
  cases text with
  | nil => cases h
  | cons c text =>
    rw [matches_at_front] at h
    by_cases hc : literal.toLower = c.toLower
    · rw [if_pos hc] at h
      exact ⟨c, text, hc, rfl, h⟩
    · rw [if_neg hc] at h
      cases h

theorem mem_matches_nil {text : List Char} {p : Groups × List Char}
    (h : p ∈ matches_at_front numerals [] text) : p = ([], text) := by
  rw [matches_at_front] at h
  exact List.mem_singleton.mp h

theorem strptime_of_head {text format : String} {groups : Groups}
    (h : (matches_at_front numerals (format_items format.toList) text.toList).head? =
      some (groups, [])) : strptime numerals text format = datetime_of_groups numerals groups := by
  unfold strptime
  rw [h]

/-- The whole text has been matched. -/
theorem exists_groups_of_strptime {text format : String} {t : Datetime}
    (h : strptime numerals text format = some t) :
    ∃ groups,
      (groups, []) ∈ matches_at_front numerals (format_items format.toList) text.toList ∧
        datetime_of_groups numerals groups = some t := by
  unfold strptime at h
  split at h
  · next groups hhead => exact ⟨groups, List.mem_of_mem_head? hhead, h⟩
  · cases h
  · cases h

/-- A date and an hour from their numbers. -/
theorem datetime_of_groups_eq_some_iff {groups : Groups} {t : Datetime} :
    datetime_of_groups numerals groups = some t ↔ ∃ year month day hour,
      group_value numerals groups 'Y' 1900 = some year ∧
      group_value numerals groups 'm' 1 = some month ∧
      group_value numerals groups 'd' 1 = some day ∧
      group_value numerals groups 'H' 0 = some hour ∧
      date year month.toNat day.toNat = some t.date ∧ hour.toNat < 24 ∧
      t.time = hour.toNat * 3600000000 := by
  unfold datetime_of_groups
  simp only [Option.bind_eq_bind, Option.bind_eq_some_iff]
  constructor
  · intro h
    obtain ⟨year, hyear, month, hmonth, day, hday, hour, hhour, d, hd, h⟩ := h
    split at h
    · next hlt =>
      cases h
      exact ⟨year, month, day, hour, hyear, hmonth, hday, hhour, hd, hlt, rfl⟩
    · cases h
  · intro h
    obtain ⟨year, month, day, hour, hyear, hmonth, hday, hhour, hd, hlt, htime⟩ := h
    refine ⟨year, hyear, month, hmonth, day, hday, hour, hhour, t.date, hd, ?_⟩
    rw [dif_pos hlt]
    exact congrArg some (Datetime.ext rfl htime.symm)

end groups

/-! ### Texts of full width -/

/-- A text of the characters that `strftime` writes in the default formats. -/
structure Padded (length : Nat) (text : String) : Prop where
  length : text.length = length
  chars : ∀ c ∈ text.toList, c.isDigit = true ∨ c = '-' ∨ c = 'T'

section padded

variable {numerals : Numerals}

theorem toNat_toLower (c : Char) :
    c.toLower.toNat = if 65 ≤ c.toNat ∧ c.toNat ≤ 90 then c.toNat + 32 else c.toNat := by
  have hupper : c.val ≥ 'A'.val ∧ c.val ≤ 'Z'.val ↔ 65 ≤ c.toNat ∧ c.toNat ≤ 90 := by
    rw [ge_iff_le, UInt32.le_iff_toNat_le, UInt32.le_iff_toNat_le]
    rfl
  unfold Char.toLower
  by_cases h : 65 ≤ c.toNat ∧ c.toNat ≤ 90
  · rw [dif_pos (hupper.mpr h), if_pos h]
    show (c.val + ('a'.val - 'A'.val)).toNat = c.val.toNat + 32
    have hle : c.val.toNat ≤ 90 := h.2
    rw [UInt32.toNat_add]
    exact Nat.mod_eq_of_lt (show c.val.toNat + 32 < 2 ^ 32 by omega)
  · rw [dif_neg fun hc => h (hupper.mp hc), if_neg h]

/-- A character without capitals is matched by itself only. -/
theorem eq_of_toLower {literal c : Char} (hupper : ¬ (65 ≤ literal.toNat ∧ literal.toNat ≤ 90))
    (hlower : ¬ (97 ≤ literal.toNat ∧ literal.toNat ≤ 122)) (h : literal.toLower = c.toLower) :
    c = literal := by
  have hnat := congrArg Char.toNat h
  rw [toNat_toLower, toNat_toLower, if_neg hupper] at hnat
  exact Char.toNat_inj.mp (by split at hnat <;> omega)

/-- The set has neither of the characters that stand between groups. -/
def CharSet.inside : CharSet → Bool
  | .between low high => !(low ≤ '-' && '-' ≤ high) && !(low ≤ 'T' && 'T' ≤ high)
  | .decimal => true

theorem alternatives_inside (directive : Char) :
    (alternatives directive).all (·.all CharSet.inside) = true := by
  unfold alternatives
  split <;> rfl

theorem not_contains {set : CharSet} (h : set.inside = true) {c : Char} (hc : c = '-' ∨ c = 'T') :
    set.contains numerals c = false := by
  cases set with
  | between low high =>
    rw [CharSet.inside, Bool.and_eq_true, Bool.not_eq_true', Bool.not_eq_true'] at h
    rcases hc with rfl | rfl
    · exact h.1
    · exact h.2
  | decimal =>
    rcases hc with rfl | rfl
    · rw [CharSet.contains, numerals.decimal_of_ascii (by decide)]
      rfl
    · rw [CharSet.contains, numerals.decimal_of_ascii (by decide)]
      rfl

/-- In a text of full width, a group has digits only. -/
theorem IsGroup.digits {directive : Char} {group : List Char}
    (h : IsGroup numerals directive group)
    (hchars : ∀ c ∈ group, c.isDigit = true ∨ c = '-' ∨ c = 'T') :
    ∀ c ∈ group, c.isDigit = true := by
  obtain ⟨sets, hsets, hgroup⟩ := h
  have hinside : ∀ set ∈ sets, set.inside = true :=
    List.all_eq_true.mp (List.all_eq_true.mp (alternatives_inside directive) sets hsets)
  clear hsets
  induction hgroup with
  | nil => simp
  | @cons set c sets group hc _ ih =>
    rw [List.forall_mem_cons] at hchars hinside ⊢
    refine ⟨hchars.1.resolve_right fun hbetween => ?_, ih hchars.2 hinside.2⟩
    rw [not_contains hinside.1 hbetween] at hc
    cases hc

theorem alternatives_length {directive : Char} {sets : List CharSet}
    (h : sets ∈ alternatives directive) : 0 < sets.length ∧
      sets.length ≤ group_width directive ∧ (directive = 'Y' → sets.length = 4) := by
  unfold alternatives at h
  split at h <;> simp [group_width] at h ⊢ <;> grind

theorem IsGroup.length_le {directive : Char} {group : List Char}
    (h : IsGroup numerals directive group) : 0 < group.length ∧
      group.length ≤ group_width directive ∧ (directive = 'Y' → group.length = 4) := by
  obtain ⟨sets, hsets, hgroup⟩ := h
  rw [← hgroup.length_eq]
  exact alternatives_length hsets

theorem IsGroup.year_length {group : List Char} (h : IsGroup numerals 'Y' group) :
    group.length = 4 := h.length_le.2.2 rfl

theorem IsGroup.length_le_two {directive : Char} {group : List Char}
    (h : IsGroup numerals directive group) (hdirective : directive ≠ 'Y') : group.length ≤ 2 := by
  have hle := h.length_le.2.1
  rwa [group_width, if_neg hdirective] at hle

/-- A group of digits is read as their number. -/
theorem IsGroup.value {directive : Char} {group : List Char}
    (h : IsGroup numerals directive group) (hdigits : ∀ c ∈ group, c.isDigit = true) :
    numerals.int group = some (Nat.ofDigitChars 10 group 0 : Int) := by
  obtain ⟨hpos, hle, -⟩ := h.length_le
  have hwidth : group_width directive ≤ 4 := by
    unfold group_width
    split <;> decide
  exact Numerals.int_of_number (.of_digits (List.ne_nil_of_length_pos hpos) hdigits) (by omega)

/-- A group of full width is what `strftime` writes. -/
theorem toList_pad_of_digits {group : List Char} {width : Nat} (hwidth : group.length = width)
    (hpos : 0 < width) (hdigits : ∀ c ∈ group, c.isDigit = true) :
    (Text.pad width (Nat.ofDigitChars 10 group 0)).toList = group := by
  have hpad := Text.pad_of_digits (List.ne_nil_of_length_pos (hwidth ▸ hpos)) hdigits
  rw [hwidth] at hpad
  rw [hpad, String.toList_ofList]

theorem toList_pad_two {n : Nat} (h : n < 100) :
    (Text.pad 2 n).toList = [Nat.digitChar (n / 10), Nat.digitChar (n % 10)] := by
  have hall : ∀ n < 100,
      (Text.pad 2 n).toList = [Nat.digitChar (n / 10), Nat.digitChar (n % 10)] := by decide +kernel
  exact hall n h

/-! #### The default formats -/

theorem toList_strftime_day (t : Datetime) : (t.strftime "%Y-%m-%d").toList =
    (Text.pad 4 t.date.year.toNat).toList ++ '-' ::
      ((Text.pad 2 t.date.month).toList ++ '-' :: (Text.pad 2 t.date.day).toList) := by
  simp [Datetime.strftime, Datetime.strftime_chars]

theorem toList_strftime_hour (t : Datetime) : (t.strftime "%Y-%m-%dT%H").toList =
    (Text.pad 4 t.date.year.toNat).toList ++ '-' ::
      ((Text.pad 2 t.date.month).toList ++ '-' :: ((Text.pad 2 t.date.day).toList ++ 'T' ::
        (Text.pad 2 (t.time / 3600000000)).toList)) := by
  simp [Datetime.strftime, Datetime.strftime_chars]

theorem toList_strftime_month (t : Datetime) : (t.strftime "%Y-%m-01").toList =
    (Text.pad 4 t.date.year.toNat).toList ++ '-' ::
      ((Text.pad 2 t.date.month).toList ++ ['-', '0', '1']) := by
  simp [Datetime.strftime, Datetime.strftime_chars]

theorem items_day : format_items "%Y-%m-%d".toList =
    [.directive 'Y', .literal '-', .directive 'm', .literal '-', .directive 'd'] := by decide

theorem items_hour : format_items "%Y-%m-%dT%H".toList =
    [.directive 'Y', .literal '-', .directive 'm', .literal '-', .directive 'd', .literal 'T',
      .directive 'H'] := by decide

theorem items_month : format_items "%Y-%m-01".toList =
    [.directive 'Y', .literal '-', .directive 'm', .literal '-', .literal '0', .literal '1'] := by
  decide

/-- The formats begin with the year and the month. -/
theorem mem_matches_year_month {items : List FormatItem} {text : List Char}
    {p : Groups × List Char}
    (h : p ∈ matches_at_front numerals
      (.directive 'Y' :: .literal '-' :: .directive 'm' :: .literal '-' :: items) text) :
    ∃ year month rest, IsGroup numerals 'Y' year ∧ IsGroup numerals 'm' month ∧
      text = year ++ '-' :: (month ++ '-' :: rest) ∧
      ∃ q ∈ matches_at_front numerals items rest,
        p = (('Y', year) :: ('m', month) :: q.1, q.2) := by
  obtain ⟨year, rest, hyear, rfl, p', h', rfl⟩ := mem_matches_directive h
  obtain ⟨c, rest, hc, rfl, hmonths⟩ := mem_matches_literal h'
  cases eq_of_toLower (by decide) (by decide) hc
  obtain ⟨month, rest, hmonth, rfl, q, hq, rfl⟩ := mem_matches_directive hmonths
  obtain ⟨c, rest, hc, rfl, hq'⟩ := mem_matches_literal hq
  cases eq_of_toLower (by decide) (by decide) hc
  exact ⟨year, month, rest, hyear, hmonth, rfl, q, hq', rfl⟩

variable {key : String} {t : Datetime}

theorem of_strptime_day (h : strptime numerals key "%Y-%m-%d" = some t) :
    ∃ year month day, IsGroup numerals 'Y' year ∧ IsGroup numerals 'm' month ∧
      IsGroup numerals 'd' day ∧ key.toList = year ++ '-' :: (month ++ '-' :: day) ∧
      datetime_of_groups numerals [('Y', year), ('m', month), ('d', day)] = some t := by
  obtain ⟨groups, hmatch, ht⟩ := exists_groups_of_strptime h
  rw [items_day] at hmatch
  obtain ⟨year, month, rest, hyear, hmonth, htext, p, hp, heq⟩ := mem_matches_year_month hmatch
  obtain ⟨day, rest, hday, rfl, q, hq, rfl⟩ := mem_matches_directive hp
  cases mem_matches_nil hq
  cases heq
  exact ⟨year, month, day, hyear, hmonth, hday, by simpa using htext, ht⟩

theorem of_strptime_hour (h : strptime numerals key "%Y-%m-%dT%H" = some t) :
    ∃ year month day c hour, IsGroup numerals 'Y' year ∧ IsGroup numerals 'm' month ∧
      IsGroup numerals 'd' day ∧ 'T'.toLower = c.toLower ∧ IsGroup numerals 'H' hour ∧
      key.toList = year ++ '-' :: (month ++ '-' :: (day ++ c :: hour)) ∧
      datetime_of_groups numerals
        [('Y', year), ('m', month), ('d', day), ('H', hour)] = some t := by
  obtain ⟨groups, hmatch, ht⟩ := exists_groups_of_strptime h
  rw [items_hour] at hmatch
  obtain ⟨year, month, rest, hyear, hmonth, htext, p, hp, heq⟩ := mem_matches_year_month hmatch
  obtain ⟨day, rest, hday, rfl, q, hq, rfl⟩ := mem_matches_directive hp
  obtain ⟨c, rest, hc, rfl, hq'⟩ := mem_matches_literal hq
  obtain ⟨hour, rest, hhour, rfl, r, hr, rfl⟩ := mem_matches_directive hq'
  cases mem_matches_nil hr
  cases heq
  exact ⟨year, month, day, c, hour, hyear, hmonth, hday, hc, hhour, by simpa using htext, ht⟩

theorem of_strptime_month (h : strptime numerals key "%Y-%m-01" = some t) :
    ∃ year month, IsGroup numerals 'Y' year ∧ IsGroup numerals 'm' month ∧
      key.toList = year ++ '-' :: (month ++ ['-', '0', '1']) ∧
      datetime_of_groups numerals [('Y', year), ('m', month)] = some t := by
  obtain ⟨groups, hmatch, ht⟩ := exists_groups_of_strptime h
  rw [items_month] at hmatch
  obtain ⟨year, month, rest, hyear, hmonth, htext, p, hp, heq⟩ := mem_matches_year_month hmatch
  obtain ⟨c, rest, hc, rfl, hp'⟩ := mem_matches_literal hp
  cases eq_of_toLower (by decide) (by decide) hc
  obtain ⟨c, rest, hc, rfl, hend⟩ := mem_matches_literal hp'
  cases eq_of_toLower (by decide) (by decide) hc
  cases mem_matches_nil hend
  cases heq
  exact ⟨year, month, hyear, hmonth, htext, ht⟩

/-! #### Reading and writing again -/

/-- What is read from digits is written again, where the groups have full width. -/
theorem pads_of_groups {groups : Groups} {year month : List Char}
    (h : datetime_of_groups numerals (('Y', year) :: ('m', month) :: groups) = some t)
    (hyear : IsGroup numerals 'Y' year) (hyear_digits : ∀ c ∈ year, c.isDigit = true)
    (hmonth : IsGroup numerals 'm' month) (hmonth_digits : ∀ c ∈ month, c.isDigit = true)
    (hmonth_width : month.length = 2) :
    (Text.pad 4 t.date.year.toNat).toList = year ∧ (Text.pad 2 t.date.month).toList = month ∧
      ∃ day hour, group_value numerals (('Y', year) :: ('m', month) :: groups) 'd' 1 = some day ∧
        group_value numerals (('Y', year) :: ('m', month) :: groups) 'H' 0 = some hour ∧
        t.date.day = day.toNat ∧ t.time = hour.toNat * 3600000000 := by
  obtain ⟨y, m, day, hour, hy, hm, hday, hhour, hdate, -, htime⟩ :=
    datetime_of_groups_eq_some_iff.mp h
  have hy : numerals.int year = some y := hy
  have hm : numerals.int month = some m := hm
  rw [hyear.value hyear_digits] at hy
  rw [hmonth.value hmonth_digits] at hm
  cases hy
  cases hm
  obtain ⟨hyear_eq, hmonth_eq, hday_eq⟩ := of_date_eq_some hdate
  refine ⟨?_, ?_, day, hour, hday, hhour, hday_eq, htime⟩
  · rw [hyear_eq]
    exact toList_pad_of_digits hyear.year_length (by decide) hyear_digits
  · rw [hmonth_eq]
    exact toList_pad_of_digits hmonth_width (by decide) hmonth_digits

/-- A group of two digits is the number it is read as, padded. -/
theorem pad_of_group {directive : Char} {group : List Char} (h : IsGroup numerals directive group)
    (hdigits : ∀ c ∈ group, c.isDigit = true) (hwidth : group.length = 2) {n : Int}
    (hn : numerals.int group = some n) : (Text.pad 2 n.toNat).toList = group := by
  rw [h.value hdigits] at hn
  cases hn
  exact toList_pad_of_digits hwidth (by decide) hdigits

theorem strftime_of_strptime_day (h : strptime numerals key "%Y-%m-%d" = some t)
    (hpadded : Padded 10 key) : t.strftime "%Y-%m-%d" = key := by
  obtain ⟨year, month, day, hyear, hmonth, hday, hkey, ht⟩ := of_strptime_day h
  have hchars := hpadded.chars
  have hlength := hpadded.length
  rw [← String.length_toList, hkey] at hlength
  simp only [List.length_append, List.length_cons, hyear.year_length] at hlength
  simp only [hkey, List.mem_append, List.mem_cons] at hchars
  have hmonth_width := hmonth.length_le_two (by decide)
  have hday_width := hday.length_le_two (by decide)
  obtain ⟨hy, hm, d, _, hd, -, hdate, -⟩ := pads_of_groups ht
    hyear (hyear.digits fun c hc => hchars c (by simp [hc]))
    hmonth (hmonth.digits fun c hc => hchars c (by simp [hc])) (by omega)
  have hpad := pad_of_group hday (hday.digits fun c hc => hchars c (by simp [hc])) (by omega) hd
  apply String.toList_injective
  rw [toList_strftime_day, hkey, hy, hm, hdate, hpad]

theorem strftime_of_strptime_hour (h : strptime numerals key "%Y-%m-%dT%H" = some t)
    (hpadded : Padded 13 key) : t.strftime "%Y-%m-%dT%H" = key := by
  obtain ⟨year, month, day, c, hour, hyear, hmonth, hday, hc, hhour, hkey, ht⟩ :=
    of_strptime_hour h
  have hchars := hpadded.chars
  have hlength := hpadded.length
  rw [← String.length_toList, hkey] at hlength
  simp only [List.length_append, List.length_cons, hyear.year_length] at hlength
  simp only [hkey, List.mem_append, List.mem_cons] at hchars
  -- a small letter is none of the characters
  have hT : c = 'T' := by
    have hnat := congrArg Char.toNat hc
    rw [toNat_toLower, toNat_toLower] at hnat
    rcases hchars c (by simp) with hdigit | rfl | rfl
    · have hrange := range_of_isDigit hdigit
      have hcapital : 'T'.toNat = 84 := rfl
      rw [if_pos (by decide), if_neg (by omega), hcapital] at hnat
      omega
    · cases hnat
    · rfl
  have hmonth_width := hmonth.length_le_two (by decide)
  have hday_width := hday.length_le_two (by decide)
  have hhour_width := hhour.length_le_two (by decide)
  obtain ⟨hy, hm, d, n, hd, hn, hdate, htime⟩ := pads_of_groups ht
    hyear (hyear.digits fun c hc => hchars c (by simp [hc]))
    hmonth (hmonth.digits fun c hc => hchars c (by simp [hc])) (by omega)
  have hpad := pad_of_group hday (hday.digits fun c hc => hchars c (by simp [hc])) (by omega) hd
  have hpad' := pad_of_group hhour (hhour.digits fun c hc => hchars c (by simp [hc]))
    (by omega) hn
  have hhours : t.time / 3600000000 = n.toNat := by omega
  apply String.toList_injective
  rw [toList_strftime_hour, hkey, hy, hm, hdate, hpad, hhours, hpad', hT]

theorem strftime_of_strptime_month (h : strptime numerals key "%Y-%m-01" = some t)
    (hpadded : Padded 10 key) : t.strftime "%Y-%m-01" = key := by
  obtain ⟨year, month, hyear, hmonth, hkey, ht⟩ := of_strptime_month h
  have hchars := hpadded.chars
  have hlength := hpadded.length
  rw [← String.length_toList, hkey] at hlength
  simp only [List.length_append, List.length_cons, List.length_nil, hyear.year_length] at hlength
  simp only [hkey, List.mem_append, List.mem_cons] at hchars
  obtain ⟨hy, hm, -⟩ := pads_of_groups ht
    hyear (hyear.digits fun c hc => hchars c (by simp [hc]))
    hmonth (hmonth.digits fun c hc => hchars c (by simp [hc])) (by omega)
  apply String.toList_injective
  rw [toList_strftime_month, hkey, hy, hm]

/-- A month that has been read begins at its first day. -/
theorem first_of_strptime_month (h : strptime numerals key "%Y-%m-01" = some t) :
    t.date.day = 1 ∧ t.time = 0 := by
  obtain ⟨year, month, -, -, -, ht⟩ := of_strptime_month h
  obtain ⟨y, m, day, hour, -, -, hday, hhour, hdate, -, htime⟩ :=
    datetime_of_groups_eq_some_iff.mp ht
  cases hday
  cases hhour
  exact ⟨(of_date_eq_some hdate).2.2, htime⟩

/-- A day that has been read begins at midnight. -/
theorem time_of_strptime_day (h : strptime numerals key "%Y-%m-%d" = some t) : t.time = 0 := by
  obtain ⟨year, month, day, -, -, -, -, ht⟩ := of_strptime_day h
  obtain ⟨y, m, d, hour, -, -, -, hhour, -, -, htime⟩ := datetime_of_groups_eq_some_iff.mp ht
  cases hhour
  exact htime

theorem time_of_strptime_hour (h : strptime numerals key "%Y-%m-%dT%H" = some t) :
    3600000000 ∣ t.time := by
  obtain ⟨year, month, day, c, hour, -, -, -, -, -, -, ht⟩ := of_strptime_hour h
  obtain ⟨y, m, d, n, -, -, -, -, -, -, htime⟩ := datetime_of_groups_eq_some_iff.mp ht
  rw [htime]
  exact Nat.dvd_mul_left _ _

/-! #### Writing and reading again -/

theorem take_directive_year {y : Nat} (h : y < 10000) (rest : List Char) :
    take_directive numerals 'Y' ((Text.pad 4 y).toList ++ rest) =
      [((Text.pad 4 y).toList, rest)] := by
  have hlength := @Text.length_toList_pad 4 y (by decide) h
  have hdigits : ∀ c ∈ (Text.pad 4 y).toList, (numerals.decimal c).isSome = true := by
    intro c hc
    rw [Numerals.decimal_of_isDigit (Text.mem_pad hc)]
    rfl
  generalize (Text.pad 4 y).toList = text at *
  match text, hlength with
  | [a, b, c, d], _ =>
    simp at hdigits
    simp [take_directive, alternatives, take_sets, CharSet.contains, hdigits]

/-- A month with the hyphen after it. -/
theorem matches_month {m : Nat} (hpos : 1 ≤ m) (hle : m ≤ 12) (items : List FormatItem)
    (rest : List Char) :
    matches_at_front numerals (.directive 'm' :: .literal '-' :: items)
        ((Text.pad 2 m).toList ++ '-' :: rest) =
      (matches_at_front numerals items rest).map fun q =>
        (('m', (Text.pad 2 m).toList) :: q.1, q.2) := by
  rw [toList_pad_two (by omega)]
  interval_cases m <;>
    simp [matches_at_front, take_directive, alternatives, take_sets, CharSet.contains,
      Nat.digitChar]

/-- A day with the capital after it. -/
theorem matches_day {d : Nat} (hpos : 1 ≤ d) (hle : d ≤ 31) (items : List FormatItem)
    (rest : List Char) :
    matches_at_front numerals (.directive 'd' :: .literal 'T' :: items)
        ((Text.pad 2 d).toList ++ 'T' :: rest) =
      (matches_at_front numerals items rest).map fun q =>
        (('d', (Text.pad 2 d).toList) :: q.1, q.2) := by
  rw [toList_pad_two (by omega)]
  interval_cases d <;>
    simp [matches_at_front, take_directive, alternatives, take_sets, CharSet.contains,
      Nat.digitChar, Numerals.decimal_of_isDigit]

/-- At the end of the text, the alternative that takes two digits comes first. -/
theorem matches_last_day {d : Nat} (hpos : 1 ≤ d) (hle : d ≤ 31) :
    (matches_at_front numerals [.directive 'd'] (Text.pad 2 d).toList).head? =
      some ([('d', (Text.pad 2 d).toList)], []) := by
  rw [toList_pad_two (by omega)]
  interval_cases d <;>
    simp [matches_at_front, take_directive, alternatives, take_sets, CharSet.contains,
      Nat.digitChar, Numerals.decimal_of_isDigit]

theorem matches_last_hour {hour : Nat} (h : hour < 24) :
    (matches_at_front numerals [.directive 'H'] (Text.pad 2 hour).toList).head? =
      some ([('H', (Text.pad 2 hour).toList)], []) := by
  rw [toList_pad_two (by omega)]
  interval_cases hour <;>
    simp [matches_at_front, take_directive, alternatives, take_sets, CharSet.contains,
      Nat.digitChar, Numerals.decimal_of_isDigit]

theorem matches_year_month {y m : Nat} (hy : y < 10000) (hpos : 1 ≤ m) (hle : m ≤ 12)
    (items : List FormatItem) (rest : List Char) :
    matches_at_front numerals
        (.directive 'Y' :: .literal '-' :: .directive 'm' :: .literal '-' :: items)
        ((Text.pad 4 y).toList ++ '-' :: ((Text.pad 2 m).toList ++ '-' :: rest)) =
      (matches_at_front numerals items rest).map fun q =>
        (('Y', (Text.pad 4 y).toList) :: ('m', (Text.pad 2 m).toList) :: q.1, q.2) := by
  rw [matches_at_front, take_directive_year hy, List.flatMap_singleton, matches_at_front,
    if_pos rfl, matches_month hpos hle, List.map_map]
  rfl

theorem int_pad {width n : Nat} (hpos : 0 < width) (hwidth : width ≤ 640) (h : n < 10 ^ width) :
    numerals.int (Text.pad width n).toList = some (n : Int) := by
  have hnumber : IsNumber (Text.pad width n).toList n :=
    ⟨Text.toList_pad_ne_nil width n, fun c => Text.mem_pad, Text.of_digits_pad width n⟩
  apply Numerals.int_of_number hnumber
  rw [Text.length_toList_pad hpos h]
  exact hwidth

theorem date_self (d : Date) : date d.year d.month d.day = some d :=
  dif_pos ⟨⟨d.month_pos, d.month_le⟩, ⟨d.day_pos, d.day_le⟩, d.min_year, d.max_year⟩

/-- The bounds of the numbers that are written. -/
theorem number_bounds (t : Datetime) : t.date.year.toNat < 10000 ∧ t.date.day ≤ 31 ∧
    t.time / 3600000000 < 24 := by
  have hmax := t.date.max_year
  have hday := t.date.day_le
  have hmonth := Calendar.days_in_month_le t.date.year t.date.month
  have htime := t.time_lt
  refine ⟨by omega, by omega, by omega⟩

theorem group_value_head {directive : Char} {group : List Char} {groups : Groups} (default : Int) :
    group_value numerals ((directive, group) :: groups) directive default =
      numerals.int group := by
  simp [group_value]

theorem group_value_tail {directive directive' : Char} {group : List Char} {groups : Groups}
    (h : directive' ≠ directive) (default : Int) :
    group_value numerals ((directive, group) :: groups) directive' default =
      group_value numerals groups directive' default := by
  have hne : (directive' == directive) = false := by simpa using h
  simp [group_value, List.lookup_cons, hne]

theorem group_value_nil (directive : Char) (default : Int) :
    group_value numerals [] directive default = some default := rfl

/-- The numbers that are written are read back. -/
theorem datetime_of_pads {t x : Datetime} {groups : Groups} {day hour : Nat}
    (hday : group_value numerals groups 'd' 1 = some (day : Int))
    (hhour : group_value numerals groups 'H' 0 = some (hour : Int))
    (hdate : date t.date.year t.date.month day = some x.date) (hlt : hour < 24)
    (htime : x.time = hour * 3600000000) :
    datetime_of_groups numerals (('Y', (Text.pad 4 t.date.year.toNat).toList) ::
      ('m', (Text.pad 2 t.date.month).toList) :: groups) = some x := by
  have hmonth := t.date.month_le
  have hmin := t.date.min_year
  have hyear : ((t.date.year.toNat : Nat) : Int) = t.date.year := Int.toNat_of_nonneg (by omega)
  apply datetime_of_groups_eq_some_iff.mpr
  refine ⟨t.date.year, t.date.month, day, hour, ?_, ?_, ?_, ?_, hdate, hlt, htime⟩
  · have hread := @int_pad numerals 4 _ (by decide) (by decide) (number_bounds t).1
    rw [group_value_head, hread, hyear]
  · rw [group_value_tail (by decide), group_value_head]
    exact int_pad (by decide) (by decide) (by omega)
  · rw [group_value_tail (by decide), group_value_tail (by decide), hday]
  · rw [group_value_tail (by decide), group_value_tail (by decide), hhour]

/-- A match that begins with the year and the month. -/
theorem strptime_of_pads {t x : Datetime} {text format : String} {groups : Groups}
    {day hour : Nat}
    (hmatch : (matches_at_front numerals (format_items format.toList) text.toList).head? =
      some (('Y', (Text.pad 4 t.date.year.toNat).toList) ::
        ('m', (Text.pad 2 t.date.month).toList) :: groups, []))
    (hday : group_value numerals groups 'd' 1 = some (day : Int))
    (hhour : group_value numerals groups 'H' 0 = some (hour : Int))
    (hdate : date t.date.year t.date.month day = some x.date) (hlt : hour < 24)
    (htime : x.time = hour * 3600000000) : strptime numerals text format = some x :=
  (strptime_of_head hmatch).trans (datetime_of_pads hday hhour hdate hlt htime)

theorem strptime_strftime_day (numerals : Numerals) (t : Datetime) :
    strptime numerals (t.strftime "%Y-%m-%d") "%Y-%m-%d" = some t.date.midnight := by
  obtain ⟨hyear, hday, -⟩ := number_bounds t
  have hread : group_value numerals [('d', (Text.pad 2 t.date.day).toList)] 'd' 1 =
      some (t.date.day : Int) := by
    rw [group_value_head]
    exact int_pad (by decide) (by decide) (by omega)
  have hhour : group_value numerals [('d', (Text.pad 2 t.date.day).toList)] 'H' 0 =
      some ((0 : Nat) : Int) := by
    rw [group_value_tail (by decide), group_value_nil]
    rfl
  have hmatch : (matches_at_front numerals (format_items "%Y-%m-%d".toList)
      (t.strftime "%Y-%m-%d").toList).head? = some (('Y', (Text.pad 4 t.date.year.toNat).toList) ::
        ('m', (Text.pad 2 t.date.month).toList) :: [('d', (Text.pad 2 t.date.day).toList)],
          []) := by
    rw [items_day, toList_strftime_day,
      matches_year_month hyear t.date.month_pos t.date.month_le, List.head?_map,
      matches_last_day t.date.day_pos hday]
    rfl
  exact strptime_of_pads hmatch hread hhour (date_self t.date) (by decide) (Nat.zero_mul _).symm

theorem strptime_strftime_hour (numerals : Numerals) {t : Datetime} (h : 3600000000 ∣ t.time) :
    strptime numerals (t.strftime "%Y-%m-%dT%H") "%Y-%m-%dT%H" = some t := by
  obtain ⟨hyear, hday, hhour⟩ := number_bounds t
  generalize hgroups : [('d', (Text.pad 2 t.date.day).toList),
    ('H', (Text.pad 2 (t.time / 3600000000)).toList)] = groups
  have hread : group_value numerals groups 'd' 1 = some (t.date.day : Int) := by
    rw [← hgroups, group_value_head]
    exact int_pad (by decide) (by decide) (by omega)
  have hread' : group_value numerals groups 'H' 0 =
      some ((t.time / 3600000000 : Nat) : Int) := by
    rw [← hgroups, group_value_tail (by decide), group_value_head]
    exact int_pad (by decide) (by decide) (by omega)
  have hmatch : (matches_at_front numerals (format_items "%Y-%m-%dT%H".toList)
      (t.strftime "%Y-%m-%dT%H").toList).head? =
        some (('Y', (Text.pad 4 t.date.year.toNat).toList) ::
          ('m', (Text.pad 2 t.date.month).toList) :: groups, []) := by
    rw [items_hour, toList_strftime_hour,
      matches_year_month hyear t.date.month_pos t.date.month_le, matches_day t.date.day_pos hday,
      List.head?_map, List.head?_map, matches_last_hour hhour, ← hgroups]
    rfl
  exact strptime_of_pads hmatch hread hread' (date_self t.date) hhour (Nat.div_mul_cancel h).symm

/-- The first day of the month of a time is read. -/
theorem strptime_strftime_month (numerals : Numerals) (t : Datetime) :
    ∃ x, date t.date.year t.date.month 1 = some x ∧
      strptime numerals (t.strftime "%Y-%m-01") "%Y-%m-01" = some x.midnight := by
  obtain ⟨x, hx⟩ := date_isSome t.date.year t.date.month 1
    ⟨⟨t.date.month_pos, t.date.month_le⟩,
      ⟨le_refl 1, le_trans (by decide) (Calendar.days_in_month_pos _ _)⟩,
      t.date.min_year, t.date.max_year⟩
  refine ⟨x, hx, ?_⟩
  have hliterals : matches_at_front numerals [.literal '0', .literal '1'] ['0', '1'] =
      [([], [])] := rfl
  have hmatch : (matches_at_front numerals (format_items "%Y-%m-01".toList)
      (t.strftime "%Y-%m-01").toList).head? = some (('Y', (Text.pad 4 t.date.year.toNat).toList) ::
        ('m', (Text.pad 2 t.date.month).toList) :: [], []) := by
    rw [items_month, toList_strftime_month,
      matches_year_month (number_bounds t).1 t.date.month_pos t.date.month_le, hliterals]
    rfl
  exact strptime_of_pads hmatch (group_value_nil 'd' 1) (group_value_nil 'H' 0) hx (by decide)
    (Nat.zero_mul _).symm

end padded

end Servo.Python
