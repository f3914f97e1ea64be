import Servo.Python.CheckRegistry
import Servo.Python.Numerals

/-! # Cron Expressions

    A workflow's schedule is validated field by field. The step of a field is
    taken off before its list is split up, so a list is taken as one that has a
    step as a whole; the ends of a range are not compared; numbers are read by
    `int`; and the step is read by `int` where only `str.isdigit` has passed.

    So what is accepted is another language than that of cron expressions. The
    two are compared here over all schedules (`validate_cron_iff`).
-/

namespace Servo.Python

/-! ### The validator -/

/-- What `_validate_cron` raises. -/
inductive CronError where
  | ServoValidationError (e : ServoValidationError)
  /-- From `int(step)`. -/
  | ValueError

/-- `text.split()`. -/
def split_blanks (text : List Char) : List (List Char) :=
  (text.splitOnP is_space).filter fun part => !part.isEmpty

/-- `text.split(sep, 1)`, where the separator occurs. -/
def split_once (sep : Char) (text : List Char) : List Char × List Char :=
  (text.takeWhile (· ≠ sep), (text.dropWhile (· ≠ sep)).tail)

/-- The valid range of a field. -/
structure CronRange where
  min_val : Int
  max_val : Int
  field_name : String

/-- `ranges`. -/
def cron_ranges : List CronRange :=
  [⟨0, 59, "minute"⟩, ⟨0, 23, "hour"⟩, ⟨1, 31, "day-of-month"⟩, ⟨1, 12, "month"⟩,
    -- 0=Sunday
    ⟨0, 6, "day-of-week"⟩]

/-- What the step of a field leads to: an answer, or a field to go on with. -/
inductive StepOutcome where
  | returns (accepted : Bool)
  | base (field : List Char)

section validator

variable (numerals : Numerals)

/-- Handle step syntax (*/5 or 1-10/2). -/
def check_step (field : List Char) : Except CronError StepOutcome :=
  if '/' ∈ field then
    if numerals.all_digits (split_once '/' field).2 then
      match numerals.int (split_once '/' field).2 with
      | none => .error .ValueError
      | some step =>
        if step < 1 then .ok (.returns false)
        else if (split_once '/' field).1 = ['*'] then .ok (.returns true)
        else .ok (.base (split_once '/' field).1)
    else .ok (.returns false)
  else .ok (.base field)

variable (range : CronRange)

/-- `min_val <= val <= max_val`. -/
def CronRange.contains (value : Int) : Bool :=
  range.min_val ≤ value && value ≤ range.max_val

/-- Handle range syntax (1-5). -/
def check_range (field : List Char) : Bool :=
  match numerals.int (split_once '-' field).1, numerals.int (split_once '-' field).2 with
  | some start_val, some end_val => range.contains start_val && range.contains end_val
  | _, _ => false

/-- Single value. -/
def check_value (field : List Char) : Bool := (numerals.int field).any range.contains

theorem length_split_once_le (sep : Char) (field : List Char) :
    (split_once sep field).1.length ≤ field.length :=
  (List.takeWhile_prefix _).length_le

theorem length_base_le {field base : List Char} (h : check_step numerals field = .ok (.base base)) :
    base.length ≤ field.length := by
  have hle := length_split_once_le '/' field
  unfold check_step at h
  grind

/-- A piece of a list is shorter than the list. -/
theorem length_piece_lt {field piece : List Char} (hlist : ',' ∈ field)
    (h : piece ∈ Text.split [','] field) : piece.length < field.length := by
  have hcontains := Text.infix_of_mem_split h
  have hnot := Text.notMem_of_mem_split h
  have hle := hcontains.length_le
  have hne : piece.length ≠ field.length := by
    intro hlength
    rw [hcontains.eq_of_length hlength] at hnot
    exact hnot hlist
  omega

/-- `_validate_cron_field`. -/
def validate_cron_field (field : List Char) : Except CronError Bool :=
  if field = ['*'] then .ok true
  else
    match _hstep : check_step numerals field with
    | .error e => .error e
    | .ok (.returns accepted) => .ok accepted
    | .ok (.base base) =>
      -- Handle list syntax (1,3,5)
      if _hlist : ',' ∈ base then
        (Text.split [','] base).attach.allM fun piece => validate_cron_field piece.1
      else if '-' ∈ base then .ok (check_range numerals range base)
      else .ok (check_value numerals range base)
termination_by field.length
decreasing_by
  exact (length_piece_lt _hlist piece.2).trans_le (length_base_le numerals _hstep)

/-- A turn of the loop over the fields. -/
def validate_part (part : List Char × CronRange) : Except CronError Unit := do
  if ← validate_cron_field numerals part.2 part.1 then return ()
  throw (.ServoValidationError ⟨"Invalid " ++ part.2.field_name ++ " in cron expression: " ++
    String.ofList part.1 ++ " (valid: " ++ toString part.2.min_val ++ "-" ++
    toString part.2.max_val ++ ")", "schedule"⟩)

/-- `_validate_cron`. -/
def validate_cron (schedule : String) : Except CronError Unit :=
  let parts := split_blanks schedule.toList
  if parts.length ≠ 5 then
    .error (.ServoValidationError
      ⟨"Invalid cron expression (expected 5 parts): " ++ schedule, "schedule"⟩)
  else (parts.zip cron_ranges).forM (validate_part numerals)

end validator

/-! ### What is accepted -/

section lenient

variable (numerals : Numerals) (range : CronRange)

/-- An element of a list that is accepted. -/
inductive LenientItem : List Char → Prop where
  | star : LenientItem ['*']
  | value {text : List Char} {n : Int} (value : numerals.int text = some n)
      (no_range : '-' ∉ text) (valid : range.contains n = true) : LenientItem text
  /-- The ends may come in any order. -/
  | range {start stop : List Char} {m n : Int} (first : '-' ∉ start)
      (start_value : numerals.int start = some m) (stop_value : numerals.int stop = some n)
      (start_valid : range.contains m = true) (stop_valid : range.contains n = true) :
      LenientItem (start ++ '-' :: stop)

/-- A field that is accepted: elements, and one step for all of them. -/
structure Lenient (field : List Char) : Prop where
  items : ∀ item ∈ Text.split [','] (split_once '/' field).1, LenientItem numerals range item
  step : '/' ∈ field → numerals.all_digits (split_once '/' field).2 = true ∧
    ∃ n, numerals.int (split_once '/' field).2 = some n ∧ 1 ≤ n

/-- A field whose step passes `str.isdigit` and is refused by `int`. -/
structure UnreadableStep (field : List Char) : Prop where
  has_step : '/' ∈ field
  all_digits : numerals.all_digits (split_once '/' field).2 = true
  unreadable : numerals.int (split_once '/' field).2 = none

variable {numerals range}

/-! #### Splitting once -/

theorem split_once_append {sep : Char} {front : List Char} (h : sep ∉ front) (rest : List Char) :
    split_once sep (front ++ sep :: rest) = (front, rest) := by
  have hfront : ∀ c ∈ front, (decide (c ≠ sep)) = true := by
    intro c hc
    have hne : c ≠ sep := fun heq => h (heq ▸ hc)
    simpa using hne
  unfold split_once
  rw [List.takeWhile_append_of_pos hfront, List.dropWhile_append_of_pos hfront]
  simp

theorem split_once_of_notMem {sep : Char} {text : List Char} (h : sep ∉ text) :
    split_once sep text = (text, []) := by
  have htext : ∀ c ∈ text, (decide (c ≠ sep)) = true := by
    intro c hc
    have hne : c ≠ sep := fun heq => h (heq ▸ hc)
    simpa using hne
  unfold split_once
  rw [List.takeWhile_eq_self_iff.mpr htext, List.dropWhile_eq_nil_iff.mpr htext]
  rfl

theorem eq_split_once {sep : Char} {text : List Char} (h : sep ∈ text) :
    text = (split_once sep text).1 ++ sep :: (split_once sep text).2 ∧
      sep ∉ (split_once sep text).1 := by
  obtain ⟨front, rest, rfl, hfront⟩ := List.eq_append_cons_of_mem h
  rw [split_once_append hfront]
  exact ⟨rfl, hfront⟩

theorem notMem_split_once {sep : Char} (text : List Char) : sep ∉ (split_once sep text).1 := by
  by_cases h : sep ∈ text
  · exact (eq_split_once h).2
  · rwa [split_once_of_notMem h]

/-! #### The validator by its branches -/

/-- What the validator makes of an element of a list. -/
def check_item (numerals : Numerals) (range : CronRange) (item : List Char) : Bool :=
  if item = ['*'] then true
  else if '-' ∈ item then check_range numerals range item
  else check_value numerals range item

theorem check_range_iff {item : List Char} (h : '-' ∈ item) :
    check_range numerals range item = true ↔ LenientItem numerals range item := by
  obtain ⟨start, stop, rfl, hstart⟩ := List.eq_append_cons_of_mem h
  unfold check_range
  rw [split_once_append hstart]
  constructor
  · intro haccepted
    cases hm : numerals.int start with
    | none => simp [hm] at haccepted
    | some m =>
      cases hn : numerals.int stop with
      | none => simp [hm, hn] at haccepted
      | some n =>
        simp [hm, hn] at haccepted
        exact .range hstart hm hn haccepted.1 haccepted.2
  · intro hitem
    generalize htext : start ++ '-' :: stop = text at hitem
    cases hitem with
    | star => cases (htext ▸ h : '-' ∈ ['*']) with
      | tail _ hmem => cases hmem
    | value _ hno_range _ => exact absurd (htext ▸ h) hno_range
    | range hfirst hm hn hstart_valid hstop_valid =>
      have hsame := split_once_append hstart stop
      rw [htext, split_once_append hfirst] at hsame
      cases hsame
      simp [hm, hn, hstart_valid, hstop_valid]

theorem check_value_iff {item : List Char} (hstar : item ≠ ['*']) (h : '-' ∉ item) :
    check_value numerals range item = true ↔ LenientItem numerals range item := by
  unfold check_value
  constructor
  · intro haccepted
    cases hvalue : numerals.int item with
    | none => simp [hvalue] at haccepted
    | some n => exact .value hvalue h (by simpa [hvalue] using haccepted)
  · intro hitem
    cases hitem with
    | star => exact absurd rfl hstar
    | value hvalue _ hvalid => simp [hvalue, hvalid]
    | range => simp at h

theorem check_item_iff {item : List Char} :
    check_item numerals range item = true ↔ LenientItem numerals range item := by
  unfold check_item
  by_cases hstar : item = ['*']
  · rw [if_pos hstar, hstar]
    exact iff_of_true rfl .star
  · rw [if_neg hstar]
    by_cases hdash : '-' ∈ item
    · rw [if_pos hdash, check_range_iff hdash]
    · rw [if_neg hdash, check_value_iff hstar hdash]

theorem check_step_of_notMem {field : List Char} (h : '/' ∉ field) :
    check_step numerals field = .ok (.base field) := if_neg h

/-- What remains of a field has no step. -/
theorem notMem_of_base {field base : List Char}
    (h : check_step numerals field = .ok (.base base)) : '/' ∉ base := by
  by_cases hslash : '/' ∈ field
  · have hfront := @notMem_split_once '/' field
    unfold check_step at h
    grind
  · rw [check_step_of_notMem hslash] at h
    cases h
    exact hslash

theorem ne_star_of_base {field base : List Char} (hstar : field ≠ ['*'])
    (h : check_step numerals field = .ok (.base base)) : base ≠ ['*'] := by
  unfold check_step at h
  grind

/-- Without a step or a list, nothing is validated in turn. -/
theorem validate_item {item : List Char} (hslash : '/' ∉ item) (hcomma : ',' ∉ item) :
    validate_cron_field numerals range item = .ok (check_item numerals range item) := by
  rw [validate_cron_field, check_item]
  by_cases hstar : item = ['*']
  · rw [if_pos hstar, if_pos hstar]
  · rw [if_neg hstar, if_neg hstar]
    have hstep := @check_step_of_notMem numerals item hslash
    split
    · next e he =>
      rw [hstep] at he
      cases he
    · next accepted haccepted =>
      rw [hstep] at haccepted
      cases haccepted
    · next base hbase =>
      rw [hstep] at hbase
      cases hbase
      rw [dif_neg hcomma]
      by_cases hdash : '-' ∈ item
      · rw [if_pos hdash, if_pos hdash]
      · rw [if_neg hdash, if_neg hdash]

/-- The elements of a list are validated in turn, up to the first that is refused. -/
theorem allM_items {P : List Char → Prop} (h : ∀ item, P item → '/' ∉ item ∧ ',' ∉ item)
    (items : List { item // P item }) :
    items.allM (fun item => validate_cron_field numerals range item.1) =
      .ok ((items.map (·.1)).all (check_item numerals range)) := by
  induction items with
  | nil => rfl
  | cons item items ih =>
    obtain ⟨hslash, hcomma⟩ := h item.1 item.2
    rw [List.allM, validate_item hslash hcomma, Fallible.ok_bind, List.map_cons, List.all_cons]
    cases check_item numerals range item.1 with
    | true => exact ih
    | false => rfl

/-- A field is decided by its step and the elements of its list. -/
theorem validate_cron_field_eq (field : List Char) :
    validate_cron_field numerals range field =
      if field = ['*'] then .ok true
      else (check_step numerals field).map fun
        | .returns accepted => accepted
        | .base base => (Text.split [','] base).all (check_item numerals range) := by
  rw [validate_cron_field]
  by_cases hstar : field = ['*']
  · rw [if_pos hstar, if_pos hstar]
  · rw [if_neg hstar, if_neg hstar]
    split
    · next e he => rw [he]; rfl
    · next accepted haccepted => rw [haccepted]; rfl
    · next base hbase =>
      have hbase_slash : '/' ∉ base := notMem_of_base hbase
      rw [hbase]
      show _ = Except.ok ((Text.split [','] base).all (check_item numerals range))
      by_cases hlist : ',' ∈ base
      · rw [dif_pos hlist]
        rw [allM_items, List.attach_map_subtype_val]
        intro item hitem
        have hcontains := Text.infix_of_mem_split hitem
        exact ⟨fun hmem => hbase_slash (hcontains.subset hmem), Text.notMem_of_mem_split hitem⟩
      · have hbase_star : base ≠ ['*'] := ne_star_of_base hstar hbase
        rw [dif_neg hlist, Text.split_of_notMem hlist]
        simp only [List.all_cons, List.all_nil, Bool.and_true, check_item, if_neg hbase_star]
        by_cases hdash : '-' ∈ base
        · rw [if_pos hdash, if_pos hdash]
        · rw [if_neg hdash, if_neg hdash]

/-! #### The outcomes for a field -/

/-- The three outcomes of a step. -/
theorem check_step_cases {field : List Char} (h : '/' ∈ field) :
    (UnreadableStep numerals field ∧ check_step numerals field = .error .ValueError) ∨
      ((numerals.all_digits (split_once '/' field).2 = true ∧
        ∃ n, numerals.int (split_once '/' field).2 = some n ∧ 1 ≤ n) ∧
        check_step numerals field = .ok (if (split_once '/' field).1 = ['*'] then .returns true
          else .base (split_once '/' field).1)) ∨
      ¬ UnreadableStep numerals field ∧ ¬ (numerals.all_digits (split_once '/' field).2 = true ∧
        ∃ n, numerals.int (split_once '/' field).2 = some n ∧ 1 ≤ n) ∧
        check_step numerals field = .ok (.returns false) := by
  unfold check_step
  rw [if_pos h]
  by_cases hdigits : numerals.all_digits (split_once '/' field).2 = true
  · rw [if_pos hdigits]
    cases hstep : numerals.int (split_once '/' field).2 with
    | none => exact .inl ⟨⟨h, hdigits, hstep⟩, rfl⟩
    | some n =>
      have hreadable : ¬ UnreadableStep numerals field := by
        intro hunreadable
        rw [hunreadable.unreadable] at hstep
        cases hstep
      by_cases hn : n < 1
      · refine .inr (.inr ⟨hreadable, ?_, by simp [hn]⟩)
        intro hstep
        obtain ⟨-, m, hm, hpos⟩ := hstep
        cases hm
        omega
      · refine .inr (.inl ⟨⟨hdigits, n, rfl, by omega⟩, ?_⟩)
        by_cases hstar : (split_once '/' field).1 = ['*']
        · simp [hn, hstar]
        · simp [hn, hstar]
  · refine .inr (.inr ⟨fun hunreadable => hdigits hunreadable.all_digits,
      fun hstep => hdigits hstep.1, by simp [hdigits]⟩)

theorem all_check_item_iff {items : List (List Char)} :
    items.all (check_item numerals range) = true ↔
      ∀ item ∈ items, LenientItem numerals range item := by
  simp only [List.all_eq_true, check_item_iff]

/-- A field is accepted exactly if it is lenient. -/
theorem validate_cron_field_true_iff {field : List Char} :
    validate_cron_field numerals range field = .ok true ↔ Lenient numerals range field := by
  rw [validate_cron_field_eq]
  by_cases hslash : '/' ∈ field
  · have hstar : field ≠ ['*'] := by
      intro heq
      simp [heq] at hslash
    rw [if_neg hstar]
    rcases @check_step_cases numerals field hslash with hcase | hcase | hcase
    · obtain ⟨hunreadable, hcase⟩ := hcase
      rw [hcase]
      apply iff_of_false
      · intro h
        cases h
      · intro h
        obtain ⟨-, n, hn, -⟩ := h.step hslash
        rw [hunreadable.unreadable] at hn
        cases hn
    · obtain ⟨hstep, hcase⟩ := hcase
      have hlenient : Lenient numerals range field ↔
          ∀ item ∈ Text.split [','] (split_once '/' field).1, LenientItem numerals range item :=
        ⟨fun h => h.items, fun h => ⟨h, fun _ => hstep⟩⟩
      rw [hcase, hlenient]
      by_cases hbase : (split_once '/' field).1 = ['*']
      · rw [if_pos hbase, hbase]
        apply iff_of_true rfl
        intro item hitem
        rw [Text.split_of_notMem (by decide), List.mem_singleton] at hitem
        rw [hitem]
        exact .star
      · rw [if_neg hbase, ← all_check_item_iff]
        simp
    · obtain ⟨-, hstep, hcase⟩ := hcase
      rw [hcase]
      apply iff_of_false
      · simp
      · exact fun h => hstep (h.step hslash)
  · have hlenient : Lenient numerals range field ↔
        ∀ item ∈ Text.split [','] field, LenientItem numerals range item := by
      constructor
      · intro h
        have hitems := h.items
        rwa [split_once_of_notMem hslash] at hitems
      · intro h
        refine ⟨?_, fun hmem => absurd hmem hslash⟩
        rwa [split_once_of_notMem hslash]
    rw [hlenient]
    by_cases hstar : field = ['*']
    · rw [if_pos hstar, hstar]
      apply iff_of_true rfl
      intro item hitem
      rw [Text.split_of_notMem (by decide), List.mem_singleton] at hitem
      rw [hitem]
      exact .star
    · rw [if_neg hstar, check_step_of_notMem hslash, ← all_check_item_iff]
      simp

/-- Validating a field raises exactly if its step cannot be read. -/
theorem validate_cron_field_error_iff {field : List Char} {e : CronError} :
    validate_cron_field numerals range field = .error e ↔
      UnreadableStep numerals field ∧ e = .ValueError := by
  rw [validate_cron_field_eq]
  by_cases hslash : '/' ∈ field
  · have hstar : field ≠ ['*'] := by
      intro heq
      simp [heq] at hslash
    rw [if_neg hstar]
    rcases @check_step_cases numerals field hslash with hcase | hcase | hcase
    · obtain ⟨hunreadable, hcase⟩ := hcase
      rw [hcase]
      simp [hunreadable, eq_comm]
    · obtain ⟨hstep, hcase⟩ := hcase
      rw [hcase]
      apply iff_of_false
      · simp
      · intro h
        obtain ⟨-, n, hn, -⟩ := hstep
        rw [h.1.unreadable] at hn
        cases hn
    · obtain ⟨hreadable, -, hcase⟩ := hcase
      rw [hcase]
      simp [hreadable]
  · have hreadable : ¬ UnreadableStep numerals field := fun h => hslash h.has_step
    by_cases hstar : field = ['*']
    · rw [if_pos hstar]
      simp [hreadable]
    · rw [if_neg hstar, check_step_of_notMem hslash]
      simp [hreadable]

end lenient

/-! ### Cron expressions -/

section grammar

variable (range : CronRange)

/-- `*`, a number, or a range. -/
inductive IsBase : List Char → Prop where
  | star : IsBase ['*']
  | number {text : List Char} {n : Nat} (number : IsNumber text n) (le : range.min_val ≤ n)
      (ge : (n : Int) ≤ range.max_val) : IsBase text
  | range {first last : List Char} {m n : Nat} (first_number : IsNumber first m)
      (last_number : IsNumber last n) (le : range.min_val ≤ m) (ascending : m ≤ n)
      (ge : (n : Int) ≤ range.max_val) : IsBase (first ++ '-' :: last)

/-- An element of a list, which may have a step. -/
inductive IsItem : List Char → Prop where
  | base {text : List Char} (base : IsBase range text) : IsItem text
  | step {text step : List Char} {n : Nat} (base : IsBase range text) (number : IsNumber step n)
      (positive : 1 ≤ n) : IsItem (text ++ '/' :: step)

/-- A list with commas between its elements. -/
def IsField (field : List Char) : Prop :=
  ∃ items, items ≠ [] ∧ (∀ item ∈ items, IsItem range item) ∧
    field = List.intercalate [','] items

/-- A cron expression: five fields with blanks between them. -/
def IsCron (schedule : String) : Prop :=
  List.Forall₂ (fun field range => IsField range field) (split_blanks schedule.toList) cron_ranges

variable {range}

theorem IsBase.notMem {text : List Char} (h : IsBase range text) {c : Char}
    (hdigit : c.isDigit = false) (hstar : c ≠ '*') (hdash : c ≠ '-') : c ∉ text := by
  cases h with
  | star => simpa using hstar
  | number number => exact number.notMem hdigit
  | range first_number last_number =>
    simp [hdash, first_number.notMem hdigit, last_number.notMem hdigit]

theorem IsItem.comma_notMem {text : List Char} (h : IsItem range text) : ',' ∉ text := by
  cases h with
  | base base => exact base.notMem (by decide) (by decide) (by decide)
  | step base number =>
    simp [base.notMem (c := ',') (by decide) (by decide) (by decide),
      number.notMem (c := ',') (by decide)]

/-- Without a step, an element is a base. -/
theorem IsItem.base_of_notMem {text : List Char} (h : IsItem range text) (hslash : '/' ∉ text) :
    IsBase range text := by
  cases h with
  | base base => exact base
  | step => simp at hslash

/-- The base and the step of an element. -/
theorem isItem_step_iff {text step : List Char} (hslash : '/' ∉ text) :
    IsItem range (text ++ '/' :: step) ↔ IsBase range text ∧ ∃ n, IsNumber step n ∧ 1 ≤ n := by
  constructor
  · intro h
    generalize hitem : text ++ '/' :: step = item at h
    cases h with
    | base base =>
      have hnot := base.notMem (c := '/') (by decide) (by decide) (by decide)
      simp [← hitem] at hnot
    | @step text' step' n base number positive =>
      have hslash' := base.notMem (c := '/') (by decide) (by decide) (by decide)
      have hsame := split_once_append hslash step
      rw [hitem, split_once_append hslash'] at hsame
      cases hsame
      exact ⟨base, n, number, positive⟩
  · intro h
    obtain ⟨base, n, number, positive⟩ := h
    exact .step base number positive

/-- The elements of a list are between its commas. -/
theorem isField_iff {field : List Char} :
    IsField range field ↔ ∀ item ∈ Text.split [','] field, IsItem range item := by
  constructor
  · intro h
    obtain ⟨items, hne, hitems, rfl⟩ := h
    rwa [Text.split_intercalate hne fun item hitem => (hitems item hitem).comma_notMem]
  · intro h
    exact ⟨_, Text.split_ne_nil _ _, h, (Text.intercalate_split (List.cons_ne_nil _ _) _).symm⟩

/-- No comma comes after the first step. -/
def StepAtEnd (field : List Char) : Prop := ',' ∉ (split_once '/' field).2

/-- A list whose only step comes at its end. -/
theorem isField_of_step_at_end_iff {field : List Char} (h : StepAtEnd field) :
    IsField range field ↔
      (∀ item ∈ Text.split [','] (split_once '/' field).1, IsBase range item) ∧
        ('/' ∈ field → ∃ n, IsNumber (split_once '/' field).2 n ∧ 1 ≤ n) := by
  rw [isField_iff]
  -- without a slash, an element is a base
  have hbases : ∀ {items : List (List Char)}, (∀ item ∈ items, '/' ∉ item) →
      ((∀ item ∈ items, IsItem range item) ↔ ∀ item ∈ items, IsBase range item) := by
    intro items hslash
    constructor
    · exact fun hitems item hitem => (hitems item hitem).base_of_notMem (hslash item hitem)
    · exact fun hitems item hitem => .base (hitems item hitem)
  have hpieces : ∀ item ∈ Text.split [','] (split_once '/' field).1, '/' ∉ item := by
    intro item hitem hmem
    exact notMem_split_once field ((Text.infix_of_mem_split hitem).subset hmem)
  by_cases hslash : '/' ∈ field
  · unfold StepAtEnd at h
    obtain ⟨hfield, -⟩ := eq_split_once hslash
    generalize (split_once '/' field).1 = base at *
    generalize (split_once '/' field).2 = step at *
    subst hfield
    have hsuffix : ',' ∉ '/' :: step := by simp [h]
    obtain ⟨front, last, hbase, hsplit⟩ := Text.split_append_suffix hsuffix base
    rw [hbase] at hpieces ⊢
    rw [hsplit]
    have hlast := hpieces last (by simp)
    have hfront := hbases fun item hitem => hpieces item (List.mem_append_left _ hitem)
    simp only [List.forall_mem_append, List.forall_mem_singleton, hfront,
      isItem_step_iff hlast, hslash, true_implies, and_assoc]
  · rw [split_once_of_notMem hslash] at hpieces ⊢
    rw [hbases hpieces]
    simp [hslash]

end grammar

/-! ### Where the two differ -/

section comparison

variable (numerals : Numerals) {range : CronRange}

/-- An element in the digits from 0 to 9, whose ends are in their order if it is a range. -/
inductive PlainItem : List Char → Prop where
  | star : PlainItem ['*']
  | number {text : List Char} {n : Nat} (number : IsNumber text n) : PlainItem text
  | range {first last : List Char} {m n : Nat} (first_number : IsNumber first m)
      (last_number : IsNumber last n) (ascending : m ≤ n) : PlainItem (first ++ '-' :: last)

/-- All numbers of a field are in the digits from 0 to 9, and its ranges ascend. -/
structure PlainField (field : List Char) : Prop where
  items : ∀ item ∈ Text.split [','] (split_once '/' field).1, PlainItem item
  step : ∀ c ∈ (split_once '/' field).2, c.isDigit = true

/-- `int` allows as many digits as there are in a row. -/
def ShortField (field : List Char) : Prop :=
  ∀ run, run <:+: field → (∀ c ∈ run, c.isDigit = true) → numerals.Allows run.length

variable {numerals}

theorem contains_iff {n : Int} :
    range.contains n = true ↔ range.min_val ≤ n ∧ n ≤ range.max_val := by
  simp [CronRange.contains]

theorem IsBase.plain {item : List Char} (h : IsBase range item) : PlainItem item := by
  cases h with
  | star => exact .star
  | number number => exact .number number
  | range first_number last_number _ ascending => exact .range first_number last_number ascending

theorem LenientItem.base_of_plain {item : List Char} (h : LenientItem numerals range item)
    (hplain : PlainItem item) : IsBase range item := by
  cases hplain with
  | star => exact .star
  | number number =>
    cases h with
    | star => exact .star
    | value hvalue _ hvalid =>
      obtain ⟨-, rfl⟩ := (Numerals.int_eq_some_iff number).mp hvalue
      exact .number number (contains_iff.mp hvalid).1 (contains_iff.mp hvalid).2
    | range =>
      have hnot := number.notMem (c := '-') (by decide)
      simp at hnot
  | @range first last m n first_number last_number ascending =>
    have hfirst := first_number.notMem (c := '-') (by decide)
    generalize hitem : first ++ '-' :: last = item at h
    cases h with
    | star => exact .star
    | value _ hno_range => simp [← hitem] at hno_range
    | range hstart hm hn hm_valid hn_valid =>
      have hsame := split_once_append hfirst last
      rw [hitem, split_once_append hstart] at hsame
      cases hsame
      obtain ⟨-, rfl⟩ := (Numerals.int_eq_some_iff first_number).mp hm
      obtain ⟨-, rfl⟩ := (Numerals.int_eq_some_iff last_number).mp hn
      exact .range first_number last_number (contains_iff.mp hm_valid).1 ascending
        (contains_iff.mp hn_valid).2

theorem IsBase.lenient_of_short {item : List Char} (h : IsBase range item)
    (hshort : ShortField numerals item) : LenientItem numerals range item := by
  cases h with
  | star => exact .star
  | number number le ge =>
    have hallows := hshort item List.infix_rfl number.digits
    exact .value ((Numerals.int_eq_some_iff number).mpr ⟨hallows, rfl⟩)
      (number.notMem (by decide)) (contains_iff.mpr ⟨le, ge⟩)
  | @range first last m n first_number last_number le ascending ge =>
    have hfirst := hshort first (List.prefix_append _ _).isInfix first_number.digits
    have hlast := hshort last ⟨first ++ ['-'], [], by simp⟩ last_number.digits
    exact .range (first_number.notMem (by decide))
      ((Numerals.int_eq_some_iff first_number).mpr ⟨hfirst, rfl⟩)
      ((Numerals.int_eq_some_iff last_number).mpr ⟨hlast, rfl⟩)
      (contains_iff.mpr ⟨le, by omega⟩) (contains_iff.mpr ⟨by omega, ge⟩)

/-- A number that `int` reads is short. -/
theorem short_of_number {text : List Char} {n : Nat} (h : IsNumber text n) {v : Int}
    (hv : numerals.int text = some v) : ShortField numerals text := by
  intro run hrun _
  exact ((Numerals.int_eq_some_iff h).mp hv).1.mono hrun.length_le

theorem IsBase.short_of_lenient {item : List Char} (h : IsBase range item)
    (hlenient : LenientItem numerals range item) : ShortField numerals item := by
  cases h with
  | star =>
    intro run hrun hdigits
    have hnil : run = [] := by
      rw [List.eq_nil_iff_forall_not_mem]
      intro c hc
      have hstar := List.mem_singleton.mp (hrun.subset hc)
      have hdigit := hdigits c hc
      rw [hstar] at hdigit
      cases hdigit
    intro limit _
    simp [hnil]
  | number number =>
    cases hlenient with
    | star => cases number.digits '*' (by simp)
    | value hvalue => exact short_of_number number hvalue
    | range =>
      have hnot := number.notMem (c := '-') (by decide)
      simp at hnot
  | @range first last m n first_number last_number =>
    have hfirst := first_number.notMem (c := '-') (by decide)
    generalize hitem : first ++ '-' :: last = item at hlenient
    cases hlenient with
    | star =>
      have hmem : '-' ∈ first ++ '-' :: last := by simp
      rw [hitem] at hmem
      simp at hmem
    | value _ hno_range => simp [← hitem] at hno_range
    | range hstart hm hn =>
      have hsame := split_once_append hfirst last
      rw [hitem, split_once_append hstart] at hsame
      cases hsame
      intro run hrun hdigits
      have hdash : '-' ∉ run := by
        intro hmem
        cases hdigits _ hmem
      rcases Text.infix_of_append_sep hdash hrun with hrun | hrun
      · exact short_of_number first_number hm run hrun hdigits
      · exact short_of_number last_number hn run hrun hdigits

/-! #### Fields -/

theorem Lenient.step_at_end {field : List Char} (h : Lenient numerals range field) :
    StepAtEnd field := by
  unfold StepAtEnd
  by_cases hslash : '/' ∈ field
  · exact Numerals.notMem_of_all_digits (h.step hslash).1 (by decide) (by decide)
  · simp [split_once_of_notMem hslash]

theorem Lenient.field_of_plain {field : List Char} (h : Lenient numerals range field)
    (hplain : PlainField field) : IsField range field := by
  rw [isField_of_step_at_end_iff h.step_at_end]
  constructor
  · exact fun item hitem => (h.items item hitem).base_of_plain (hplain.items item hitem)
  · intro hslash
    obtain ⟨hdigits, n, hn, hpos⟩ := h.step hslash
    have hne : (split_once '/' field).2 ≠ [] := by
      intro hnil
      simp [Numerals.all_digits, hnil] at hdigits
    have hnumber := IsNumber.of_digits hne hplain.step
    obtain ⟨-, rfl⟩ := (Numerals.int_eq_some_iff hnumber).mp hn
    exact ⟨_, hnumber, by omega⟩

theorem IsField.lenient {field : List Char} (h : IsField range field) (hend : StepAtEnd field)
    (hshort : ShortField numerals field) : Lenient numerals range field := by
  obtain ⟨hitems, hstep⟩ := (isField_of_step_at_end_iff hend).mp h
  have hpart : ∀ {part}, part <:+: field → ShortField numerals part :=
    fun hpart run hrun => hshort run (hrun.trans hpart)
  constructor
  · intro item hitem
    have hcontains := (Text.infix_of_mem_split hitem).trans (List.takeWhile_prefix _).isInfix
    exact (hitems item hitem).lenient_of_short (hpart hcontains)
  · intro hslash
    obtain ⟨n, hnumber, hpos⟩ := hstep hslash
    obtain ⟨hfield, -⟩ := eq_split_once hslash
    have hcontains : (split_once '/' field).2 <:+: field :=
      ⟨(split_once '/' field).1 ++ ['/'], [], by simpa using hfield.symm⟩
    have hallows := hpart hcontains _ List.infix_rfl hnumber.digits
    exact ⟨Numerals.all_digits_of_isNumber hnumber, n,
      (Numerals.int_eq_some_iff hnumber).mpr ⟨hallows, rfl⟩, by omega⟩

theorem IsField.plain_of_lenient {field : List Char} (h : IsField range field)
    (hlenient : Lenient numerals range field) : PlainField field := by
  obtain ⟨hitems, hstep⟩ := (isField_of_step_at_end_iff hlenient.step_at_end).mp h
  constructor
  · exact fun item hitem => (hitems item hitem).plain
  · by_cases hslash : '/' ∈ field
    · obtain ⟨n, hnumber, -⟩ := hstep hslash
      exact hnumber.digits
    · simp [split_once_of_notMem hslash]

theorem IsField.short_of_lenient {field : List Char} (h : IsField range field)
    (hlenient : Lenient numerals range field) : ShortField numerals field := by
  obtain ⟨hitems, hstep⟩ := (isField_of_step_at_end_iff hlenient.step_at_end).mp h
  intro run hrun hdigits
  have hnot : ∀ {c : Char}, c.isDigit = false → c ∉ run := by
    intro c hc hmem
    rw [hdigits c hmem] at hc
    cases hc
  -- the digits are in an element or in the step
  have hbase : run <:+: (split_once '/' field).1 → numerals.Allows run.length := by
    intro hrun
    obtain ⟨item, hitem, hrun⟩ := Text.infix_of_split (hnot (c := ',') (by decide)) hrun
    exact (hitems item hitem).short_of_lenient (hlenient.items item hitem) run hrun hdigits
  by_cases hslash : '/' ∈ field
  · obtain ⟨hfield, -⟩ := eq_split_once hslash
    rw [hfield] at hrun
    rcases Text.infix_of_append_sep (hnot (by decide)) hrun with hrun | hrun
    · exact hbase hrun
    · obtain ⟨n, hnumber, -⟩ := hstep hslash
      obtain ⟨-, v, hv, -⟩ := hlenient.step hslash
      exact short_of_number hnumber hv run hrun hdigits
  · rw [split_once_of_notMem hslash] at hbase
    exact hbase hrun

/-! #### Schedules -/

theorem validate_part_eq_ok_iff {part : List Char × CronRange} :
    validate_part numerals part = .ok () ↔ Lenient numerals part.2 part.1 := by
  rw [← validate_cron_field_true_iff]
  unfold validate_part
  cases h : validate_cron_field numerals part.2 part.1 with
  | error e => simp
  | ok accepted =>
    cases accepted with
    | true => simp [pure, Except.pure]
    | false => simp [throw, throwThe, MonadExceptOf.throw]

theorem validate_part_value_error_iff {part : List Char × CronRange} :
    validate_part numerals part = .error .ValueError ↔ UnreadableStep numerals part.1 := by
  have herror := @validate_cron_field_error_iff numerals part.2 part.1 .ValueError
  rw [and_iff_left rfl] at herror
  rw [← herror]
  unfold validate_part
  cases h : validate_cron_field numerals part.2 part.1 with
  | error e => simp
  | ok accepted =>
    cases accepted with
    | true => simp [pure, Except.pure]
    | false => simp [throw, throwThe, MonadExceptOf.throw]

variable {schedule : String}

/-- A schedule is accepted exactly if its five fields are lenient. -/
theorem validate_cron_eq_ok_iff : validate_cron numerals schedule = .ok () ↔
    List.Forall₂ (fun field range => Lenient numerals range field)
      (split_blanks schedule.toList) cron_ranges := by
  have hlength : cron_ranges.length = 5 := rfl
  unfold validate_cron
  rw [List.forall₂_iff_zip, hlength]
  by_cases hfive : (split_blanks schedule.toList).length = 5
  · simp only [hfive, ne_eq, not_true_eq_false, if_false, true_and, Fallible.forM_eq_ok_iff,
      validate_part_eq_ok_iff, Prod.forall]
  · simp [hfive]

/-- A schedule raises a `ValueError` exactly if a step that cannot be read comes after lenient
    fields only. -/
theorem validate_cron_value_error_iff : validate_cron numerals schedule = .error .ValueError ↔
    (split_blanks schedule.toList).length = 5 ∧ ∃ before part after,
      (split_blanks schedule.toList).zip cron_ranges = before ++ part :: after ∧
        (∀ part ∈ before, Lenient numerals part.2 part.1) ∧ UnreadableStep numerals part.1 := by
  unfold validate_cron
  by_cases hfive : (split_blanks schedule.toList).length = 5
  · simp only [hfive, ne_eq, not_true_eq_false, if_false, true_and, Fallible.forM_eq_error_iff,
      validate_part_eq_ok_iff, validate_part_value_error_iff]
  · simp [hfive]

variable (numerals schedule)

/-- The validator accepts the cron expressions and no others, and raises nothing but
    `ServoValidationError`. -/
def ScheduleAgrees : Prop :=
  (validate_cron numerals schedule = .ok () ↔ IsCron schedule) ∧
    ∀ e, validate_cron numerals schedule = .error e → ∃ error, e = .ServoValidationError error

/-- None of what the two languages differ in occurs. -/
structure ScheduleRegular : Prop where
  /-- In a schedule that is lenient throughout, numbers are plain and ranges ascend. -/
  plain : List.Forall₂ (fun field range => Lenient numerals range field)
      (split_blanks schedule.toList) cron_ranges →
    ∀ field ∈ split_blanks schedule.toList, PlainField field
  /-- In a cron expression, steps come at the end and numbers are not too long. -/
  narrow : IsCron schedule → ∀ field ∈ split_blanks schedule.toList,
    StepAtEnd field ∧ ShortField numerals field
  /-- No step that cannot be read comes after lenient fields only. -/
  readable : (split_blanks schedule.toList).length = 5 → ∀ before part after,
    (split_blanks schedule.toList).zip cron_ranges = before ++ part :: after →
      (∀ part ∈ before, Lenient numerals part.2 part.1) → ¬ UnreadableStep numerals part.1

variable {numerals schedule}

/-- Two properties of the fields by their ranges, taken together for each field. -/
theorem exists_range {R S : List Char → CronRange → Prop} {fields : List (List Char)}
    (h : List.Forall₂ R fields cron_ranges) (h' : List.Forall₂ S fields cron_ranges)
    {field : List Char} (hfield : field ∈ fields) : ∃ range, R field range ∧ S field range := by
  rw [List.forall₂_iff_zip] at h h'
  rw [← List.map_fst_zip h.1.le] at hfield
  obtain ⟨part, hpart, rfl⟩ := List.mem_map.mp hfield
  exact ⟨part.2, h.2 hpart, h'.2 hpart⟩

theorem forall₂_of_forall_mem {R S : List Char → CronRange → Prop} {fields : List (List Char)}
    (h : List.Forall₂ R fields cron_ranges)
    (himp : ∀ field ∈ fields, ∀ range, R field range → S field range) :
    List.Forall₂ S fields cron_ranges := by
  rw [List.forall₂_iff_zip] at h ⊢
  refine ⟨h.1, fun hpart => ?_⟩
  exact himp _ (List.of_mem_zip hpart).1 _ (h.2 hpart)

/-- **The validator and the cron expressions** agree on a schedule exactly if it is regular. -/
theorem validate_cron_iff (numerals : Numerals) (schedule : String) :
    ScheduleAgrees numerals schedule ↔ ScheduleRegular numerals schedule := by
  constructor
  · intro h
    obtain ⟨haccepts, hraises⟩ := h
    rw [validate_cron_eq_ok_iff] at haccepts
    constructor
    · intro hlenient field hfield
      obtain ⟨range, hfield, hlenient⟩ := exists_range (haccepts.mp hlenient) hlenient hfield
      exact hfield.plain_of_lenient hlenient
    · intro hcron field hfield
      obtain ⟨range, hfield, hlenient⟩ := exists_range hcron (haccepts.mpr hcron) hfield
      exact ⟨hlenient.step_at_end, hfield.short_of_lenient hlenient⟩
    · intro hfive before part after hzip hbefore hunreadable
      obtain ⟨error, herror⟩ := hraises .ValueError
        (validate_cron_value_error_iff.mpr ⟨hfive, before, part, after, hzip, hbefore, hunreadable⟩)
      cases herror
  · intro h
    constructor
    · rw [validate_cron_eq_ok_iff]
      constructor
      · intro hlenient
        have hplain := h.plain hlenient
        exact forall₂_of_forall_mem hlenient fun field hfield range hlenient =>
          hlenient.field_of_plain (hplain field hfield)
      · intro hcron
        have hnarrow := h.narrow hcron
        exact forall₂_of_forall_mem hcron fun field hfield range hcron =>
          hcron.lenient (hnarrow field hfield).1 (hnarrow field hfield).2
    · intro e he
      cases e with
      | ServoValidationError error => exact ⟨error, rfl⟩
      | ValueError =>
        obtain ⟨hfive, before, part, after, hzip, hbefore, hunreadable⟩ :=
          validate_cron_value_error_iff.mp he
        exact absurd hunreadable (h.readable hfive before part after hzip hbefore)

end comparison

/-! ### Schedules on which they differ -/

theorem lenient_star (numerals : Numerals) (range : CronRange) : Lenient numerals range ['*'] := by
  rw [← validate_cron_field_true_iff, validate_cron_field_eq, if_pos rfl]

theorem isField_star (range : CronRange) : IsField range ['*'] :=
  ⟨[['*']], by simp, by simpa using .base .star, by simp⟩

/-- Five fields, the last four of which are stars. -/
theorem forall₂_stars {R : List Char → CronRange → Prop} (hstar : ∀ range, R ['*'] range)
    (field : List Char) : List.Forall₂ R [field, ['*'], ['*'], ['*'], ['*']] cron_ranges ↔
      R field ⟨0, 59, "minute"⟩ := by
  simp [cron_ranges, hstar]

/-- A range that descends is accepted. -/
theorem descending_range_accepted :
    validate_cron latin_numerals "5-1 * * * *" = .ok () ∧ ¬ IsCron "5-1 * * * *" := by
  have hparts : split_blanks "5-1 * * * *".toList =
      [['5', '-', '1'], ['*'], ['*'], ['*'], ['*']] := by decide
  constructor
  · rw [validate_cron_eq_ok_iff, hparts, forall₂_stars (lenient_star latin_numerals),
      ← validate_cron_field_true_iff, validate_cron_field_eq]
    rfl
  · intro h
    unfold IsCron at h
    rw [hparts, forall₂_stars isField_star] at h
    have hlenient : Lenient latin_numerals ⟨0, 59, "minute"⟩ ['5', '-', '1'] := by
      rw [← validate_cron_field_true_iff, validate_cron_field_eq]
      rfl
    have hitem := (h.plain_of_lenient hlenient).items ['5', '-', '1'] (by decide)
    generalize htext : ['5', '-', '1'] = text at hitem
    cases hitem with
    | star => cases htext
    | number number =>
      rw [← htext] at number
      cases number.digits '-' (by simp)
    | @range first last m n first_number last_number ascending =>
      have hsplit := split_once_append (first_number.notMem (c := '-') (by decide)) last
      rw [← htext] at hsplit
      cases hsplit
      cases first_number.value
      cases last_number.value
      exact absurd ascending (by decide)

/-- An expression with a step before a comma is refused. -/
theorem step_before_comma_refused :
    validate_cron latin_numerals "*/5,10 * * * *" ≠ .ok () ∧ IsCron "*/5,10 * * * *" := by
  have hparts : split_blanks "*/5,10 * * * *".toList =
      [['*', '/', '5', ',', '1', '0'], ['*'], ['*'], ['*'], ['*']] := by decide
  constructor
  · rw [ne_eq, validate_cron_eq_ok_iff, hparts, forall₂_stars (lenient_star latin_numerals)]
    intro h
    exact h.step_at_end (by decide)
  · unfold IsCron
    rw [hparts, forall₂_stars isField_star, isField_iff]
    have hsplit : Text.split [','] ['*', '/', '5', ',', '1', '0'] =
        [['*', '/', '5'], ['1', '0']] := by decide
    rw [hsplit]
    rw [List.forall_mem_cons, List.forall_mem_singleton]
    constructor
    · exact .step .star (IsNumber.of_digits (by simp) (by simp)) (by decide)
    · exact .base (.number (IsNumber.of_digits (by simp) (by simp)) (by decide) (by decide))

/-- A step that `int` does not read raises a `ValueError`. -/
theorem superscript_step_raises :
    validate_cron latin_numerals "*/² * * * *" = .error .ValueError := by
  have hparts : split_blanks "*/² * * * *".toList =
      [['*', '/', '²'], ['*'], ['*'], ['*'], ['*']] := by decide
  rw [validate_cron_value_error_iff, hparts]
  refine ⟨rfl, [], _, _, rfl, by simp, ?_⟩
  exact ⟨by decide, by decide, by decide⟩

/-- The three ways in which the validator and the cron expressions differ. -/
theorem validate_cron_disagrees : ¬ ScheduleAgrees latin_numerals "5-1 * * * *" ∧
    ¬ ScheduleAgrees latin_numerals "*/5,10 * * * *" ∧
      ¬ ScheduleAgrees latin_numerals "*/² * * * *" := by
  refine ⟨?_, ?_, ?_⟩
  · intro h
    exact descending_range_accepted.2 (h.1.mp descending_range_accepted.1)
  · intro h
    exact step_before_comma_refused.1 (h.1.mpr step_before_comma_refused.2)
  · intro h
    obtain ⟨error, herror⟩ := h.2 .ValueError superscript_step_raises
    cases herror

end Servo.Python
