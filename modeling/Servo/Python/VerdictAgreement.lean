import Servo.Core.JsonText
import Servo.Framework.Text
import Servo.Python.CheckVerdicts

/-! # Where the SDK and the Worker Agree

    Both verdicts say that every value is accepted, but the two do not accept
    the same values: the worker skips nulls where the SDK looks them up, it
    compares texts where the SDK compares numbers, it rounds integers, and it
    searches for a match where the SDK matches at the start. And both differ on
    tables without rows, of which the worker does not know the columns, and on
    the number of rows, for which the SDK counts the columns.
-/

namespace Servo.Python

open CheckValidator (Libraries InRange Matches Accepted)
open Text (mem_toString_int toString_int_ne_nil toString_int_injective)

variable {F : Type}

/-! ### Double-precision numbers -/

/-- What holds of double-precision numbers: the order is that of the exact values, integers are
    rounded to a nearest number, and texts are exact and are not those of integers. -/
structure Interpreter.Documented [F64 F] (python : Interpreter F) : Prop where
  lt_iff : ∀ x y : F, F64.is_finite x = true → F64.is_finite y = true →
    (F64.lt x y = true ↔ python.value x < python.value y)
  finite_of_int : ∀ n : Int, -2 ^ 63 ≤ n → n < 2 ^ 64 → F64.is_finite (F64.of_int n : F) = true
  of_int_le : ∀ m n : Int, F64.is_finite (F64.of_int m : F) = true →
    F64.is_finite (F64.of_int n : F) = true → m ≤ n →
      python.value (F64.of_int m) ≤ python.value (F64.of_int n)
  of_int_le_float : ∀ (n : Int) (x : F), F64.is_finite (F64.of_int n : F) = true →
    F64.is_finite x = true → n ≤ python.value x → python.value (F64.of_int n) ≤ python.value x
  float_le_of_int : ∀ (n : Int) (x : F), F64.is_finite (F64.of_int n : F) = true →
    F64.is_finite x = true → python.value x ≤ n → python.value x ≤ python.value (F64.of_int n)
  text_inj : ∀ x y : F, F64.is_finite x = true → F64.is_finite y = true →
    F64.to_text x = F64.to_text y → python.value x = python.value y
  text_ne_int : ∀ (x : F) (n : Int), F64.is_finite x = true → F64.to_text x ≠ toString n
  text_head : ∀ x : F, F64.is_finite x = true →
    ∃ c rest, (F64.to_text x).toList = c :: rest ∧ (c.isDigit = true ∨ c = '-')

/-- Integers for double-precision numbers, and patterns that are a text to be found. -/
def exact_python : Interpreter Int where
  value x := x
  float_str x := toString x ++ ".0"
  collection_str _ := "[...]"
  repr text := "'" ++ text ++ "'"
  compile pattern := .ok fun text => pattern.toList.isPrefixOf text.toList

/-- The same for the worker. -/
def exact_libraries : Libraries Int where
  regex pattern := .ok fun text => decide (pattern.toList <:+: text.toList)
  invalid_check_type _ := "invalid"
  debug text := "\"" ++ text ++ "\""
  hash := ⟨id, fun _ => .refl _⟩

theorem exact_documented : exact_python.Documented where
  lt_iff x y _ _ := by
    show decide (x < y) = true ↔ (x : Rat) < (y : Rat)
    rw [decide_eq_true_iff, Rat.intCast_lt_intCast]
  finite_of_int _ _ _ := rfl
  of_int_le _ _ _ _ h := Rat.intCast_le_intCast.mpr h
  of_int_le_float _ _ _ _ h := h
  float_le_of_int _ _ _ _ h := h
  text_inj x y _ _ h := by
    have htext : toString x ++ ".0" = toString y ++ ".0" := h
    have hlist := congrArg String.toList htext
    rw [String.toList_append, String.toList_append] at hlist
    rw [toString_int_injective (String.toList_injective (List.append_cancel_right hlist))]
  text_ne_int x n _ h := by
    have htext : toString x ++ ".0" = toString n := h
    have hpoint : '.' ∈ (toString n).toList := by
      rw [← htext, String.toList_append]
      exact List.mem_append_right _ (by decide)
    rcases mem_toString_int hpoint with hdigit | hminus
    · revert hdigit
      decide
    · revert hminus
      decide
  text_head x _ := by
    obtain ⟨c, rest, hlist⟩ := List.exists_cons_of_ne_nil (toString_int_ne_nil x)
    refine ⟨c, rest ++ ".0".toList, ?_, mem_toString_int (hlist ▸ List.mem_cons_self)⟩
    show (toString x ++ ".0").toList = _
    rw [String.toList_append, hlist, List.cons_append]

/-- A number of a check that JSON has: infinities and what is rounded to them are not there. -/
def Finite [F64 F] : Value F → Prop
  | .number n => F64.is_finite n.as_f64 = true
  | _ => True

/-- The numbers of a check are in JSON. -/
def Check.HasJson [F64 F] : Check F → Prop
  | .between _ min_value max_value => Finite min_value ∧ Finite max_value
  | .in_set _ allowed_values => ∀ value ∈ allowed_values, Finite value
  | _ => True

/-! ### The values that are accepted -/

section kinds
variable [F64 F] (python : Interpreter F) (libraries : Libraries F)

/-- Between the bounds: numbers by their exact values, where `True` is 1, and texts by their
    characters. -/
def Within (min_value max_value value : Value F) : Prop :=
  (∃ a lo hi, numeric python value = some a ∧ numeric python min_value = some lo ∧
    numeric python max_value = some hi ∧ lo ≤ a ∧ a ≤ hi) ∨
  ∃ text lo hi, value = .string text ∧ min_value = .string lo ∧ max_value = .string hi ∧
    ¬ text < lo ∧ ¬ hi < text

/-- The check can be made: its pattern compiles, its values can be in a set. -/
def Check.Made : Check F → Prop
  | .matches _ pattern => ∃ matches_start, python.compile pattern = .ok matches_start
  | .in_set _ allowed_values => ∀ v ∈ allowed_values, Hashable v
  | _ => True

/-- The values that a check of the values of a column accepts in the SDK. -/
def Accepts : Check F → Value F → Prop
  | .not_null _, value => value.is_null = false
  | .between _ min_value max_value, value =>
    value.is_null = true ∨ Within python min_value max_value value
  | .matches _ pattern, value => ∃ matches_start, python.compile pattern = .ok matches_start ∧
    (value.is_null = true ∨ matches_start (str python value) = true)
  | .in_set _ allowed_values, value => (∀ v ∈ allowed_values, Hashable v) ∧
    ∃ v ∈ allowed_values, eq python value v = true
  | _, _ => True

/-- The values that only the SDK accepts. -/
inductive OnlyPython : Check F → Value F → Prop where
  /-- `True` and `False` are numbers. -/
  | bool {column : String} {min_value max_value : Value F} {b : Bool}
      (hmin : (bound min_value).isSome = true) (hmax : (bound max_value).isSome = true)
      (hwithin : Within python min_value max_value (.bool b)) :
      OnlyPython (.between column min_value max_value) (.bool b)
  /-- The worker reads no bounds but numbers. -/
  | bounds {column : String} {min_value max_value value : Value F}
      (hbounds : bound min_value = none ∨ bound max_value = none)
      (haccepts : value.is_null = true ∨ Within python min_value max_value value) :
      OnlyPython (.between column min_value max_value) value
  /-- Any value has a text that can match. -/
  | text_of_value {column pattern : String} {value : Value F}
      {matches_start is_match : String → Bool}
      (hcompile : python.compile pattern = .ok matches_start)
      (hregex : libraries.regex pattern = .ok is_match) (hnull : value.is_null = false)
      (htext : ∀ text, value ≠ .string text) (hmatch : matches_start (str python value) = true) :
      OnlyPython (.matches column pattern) value
  /-- A text in which the other library finds no match. -/
  | not_found {column pattern text : String} {matches_start is_match : String → Bool}
      (hcompile : python.compile pattern = .ok matches_start)
      (hregex : libraries.regex pattern = .ok is_match) (hmatch : matches_start text = true)
      (hnot : is_match text = false) : OnlyPython (.matches column pattern) (.string text)
  /-- A pattern that only `re` can compile. -/
  | pattern {column pattern e : String} {value : Value F} {matches_start : String → Bool}
      (hcompile : python.compile pattern = .ok matches_start)
      (hregex : libraries.regex pattern = .error e)
      (haccepts : value.is_null = true ∨ matches_start (str python value) = true) :
      OnlyPython (.matches column pattern) value
  /-- A number that is listed with another type: 1 and 1.0 and `True` are equal. -/
  | number {column : String} {allowed_values : List (Value F)} {value v : Value F} {a : Rat}
      (hset : ∀ v ∈ allowed_values, Hashable v) (hlisted : v ∈ allowed_values)
      (hvalue : numeric python value = some a) (hequal : numeric python v = some a)
      (hnot : value.to_text ∉ (allowed_values.map json_value).map Value.to_text) :
      OnlyPython (.in_set column allowed_values) value

/-- The values that only the worker accepts. -/
inductive OnlyWorker : Check F → Value F → Prop where
  /-- A number that is not compared with a missing bound, or not exactly. -/
  | number {column : String} {min_value max_value : Value F} {min max : Option F} {n : Number F}
      (hmin : bound min_value = some min) (hmax : bound max_value = some max)
      (hnot : ¬ Within python min_value max_value (.number n))
      (hwithin : InRange min max (.number n)) :
      OnlyWorker (.between column min_value max_value) (.number n)
  /-- A text in which there is a match, but not at the start. -/
  | inside {column pattern text : String} {matches_start is_match : String → Bool}
      (hcompile : python.compile pattern = .ok matches_start)
      (hregex : libraries.regex pattern = .ok is_match) (hnot : matches_start text = false)
      (hmatch : is_match text = true) : OnlyWorker (.matches column pattern) (.string text)
  /-- A pattern that only the other library can compile. -/
  | pattern {column pattern message : String} {value : Value F} {is_match : String → Bool}
      (hcompile : python.compile pattern = .error message)
      (hregex : libraries.regex pattern = .ok is_match) (haccepts : Matches is_match value) :
      OnlyWorker (.matches column pattern) value
  /-- A null that is not listed. -/
  | null {column : String} {allowed_values : List (Value F)}
      (hset : ∀ v ∈ allowed_values, Hashable v) (hnot : Value.null ∉ allowed_values) :
      OnlyWorker (.in_set column allowed_values) .null
  /-- Values that cannot be in a set can be in a list. -/
  | unhashable {column : String} {allowed_values : List (Value F)} {value : Value F}
      (hset : ¬ ∀ v ∈ allowed_values, Hashable v)
      (haccepts : Accepted (allowed_values.map json_value) value) :
      OnlyWorker (.in_set column allowed_values) value
  /-- A number to which a listed integer, one of more than 64 bits, is rounded. -/
  | rounded {column : String} {allowed_values : List (Value F)} {x : F} {n : Int}
      (hset : ∀ v ∈ allowed_values, Hashable v)
      (hnot : ∀ v ∈ allowed_values, eq python (.number (.float x)) v = false)
      (hlarge : ¬ (-2 ^ 63 ≤ n ∧ n < 2 ^ 64)) (hlisted : .number (.int n) ∈ allowed_values)
      (htext : F64.to_text x = F64.to_text (F64.of_int n : F)) :
      OnlyWorker (.in_set column allowed_values) (.number (.float x))

/-- The values that the worker accepts. -/
def WorkerAccepts : Check F → Value F → Prop
  | .not_null _, value => value.is_null = false
  | .between _ min_value max_value, value =>
    ∃ min max, bound min_value = some min ∧ bound max_value = some max ∧ InRange min max value
  | .matches _ pattern, value =>
    ∃ is_match, libraries.regex pattern = .ok is_match ∧ Matches is_match value
  | .in_set _ allowed_values, value => Accepted (allowed_values.map json_value) value
  | _, _ => True

/-- When the verdicts on the values of a column are the same. Without rows the worker does not
    know the column. With rows there is a value that neither accepts, or values of which some are
    accepted by one only, and then others by the other only. -/
def SameColumnVerdict (table : Table F) (check : Check F) (column : String) : Prop :=
  ∀ values, table.columns.lookup column = some values →
    (values = [] → ¬ check.Made python) ∧
    (values ≠ [] →
      (∃ value ∈ values, ¬ Accepts python check value ∧ ¬ OnlyWorker python libraries check value) ∨
      ((∃ value ∈ values, OnlyPython python libraries check value) ↔
        ∃ value ∈ values, OnlyWorker python libraries check value))

/-- When the verdicts on a column without duplicates are the same. Without rows the worker does not
    look for the column. With rows, two equal values have the same text. -/
def SameUniqueVerdict (table : Table F) (column : String) : Prop :=
  match table.columns.lookup column with
  | none => row_count table.columns ≠ 0
  | some values => (values.map Value.to_text).Nodup →
    values.Pairwise fun v w => ∀ a, numeric python v = some a → numeric python w ≠ some a

/-- The bounds of a row count hold of a number. -/
def InBounds (min_count max_count : Option Int) (count : Int) : Prop :=
  (∀ m ∈ min_count, m ≤ count) ∧ ∀ m ∈ max_count, count ≤ m

/-- When the verdicts of a check on a table are the same. -/
def Check.SameVerdict (table : Table F) : Check F → Prop
  | .not_null column => SameColumnVerdict python libraries table (.not_null column) column
  | .unique column => SameUniqueVerdict python table column
  | .between column min_value max_value =>
    SameColumnVerdict python libraries table (.between column min_value max_value) column
  | .matches column pattern =>
    SameColumnVerdict python libraries table (.matches column pattern) column
  | .in_set column allowed_values =>
    SameColumnVerdict python libraries table (.in_set column allowed_values) column
  -- the SDK counts the columns, and the worker reads no bounds but those of 64 bits
  | .row_count min_count max_count =>
    InBounds min_count max_count table.columns.length ↔
      ((∀ n ∈ min_count, -2 ^ 63 ≤ n ∧ n < 2 ^ 63) ∧
        ∀ n ∈ max_count, -2 ^ 63 ≤ n ∧ n < 2 ^ 63) ∧
      InBounds min_count max_count (Python.row_count table.columns)

end kinds

/-! ### Two verdicts on the values of a list -/

/-- Of two tests, one passes values that the other does not pass, and the other way round. -/
theorem same_verdict_of_kinds {α : Type} {values : List α} {P W onlyP onlyW : α → Prop}
    (hW : ∀ v ∈ values, (W v ↔ (P v ∧ ¬ onlyP v) ∨ onlyW v)) (hP : ∀ v, onlyP v → P v)
    (hnotP : ∀ v, onlyW v → ¬ P v) :
    ((∀ v ∈ values, P v) ↔ ∀ v ∈ values, W v) ↔
      (∃ v ∈ values, ¬ P v ∧ ¬ onlyW v) ∨
        ((∃ v ∈ values, onlyP v) ↔ ∃ v ∈ values, onlyW v) := by
  by_cases hboth : ∃ v ∈ values, ¬ P v ∧ ¬ onlyW v
  · obtain ⟨v, hv, hnot, hnotW⟩ := hboth
    refine iff_of_true (iff_of_false (fun h => hnot (h v hv)) fun h => ?_)
      (.inl ⟨v, hv, hnot, hnotW⟩)
    rcases (hW v hv).mp (h v hv) with h' | h'
    · exact hnot h'.1
    · exact hnotW h'
  · rw [or_iff_right hboth]
    -- each value is passed by the one, or by the other only
    have hcover : ∀ v ∈ values, ¬ P v → onlyW v := fun v hv hnot =>
      by_contra fun h => hboth ⟨v, hv, hnot, h⟩
    have hallP : (∀ v ∈ values, P v) ↔ ¬ ∃ v ∈ values, onlyW v := by
      constructor
      · intro h ⟨v, hv, hw⟩
        exact hnotP v hw (h v hv)
      · exact fun h v hv => by_contra fun hnot => h ⟨v, hv, hcover v hv hnot⟩
    have hallW : (∀ v ∈ values, W v) ↔ ¬ ∃ v ∈ values, onlyP v := by
      constructor
      · intro h ⟨v, hv, hp⟩
        rcases (hW v hv).mp (h v hv) with h' | h'
        · exact h'.2 hp
        · exact hnotP v h' (hP v hp)
      · intro h v hv
        refine (hW v hv).mpr ?_
        by_cases hPv : P v
        · exact .inl ⟨hPv, fun hp => h ⟨v, hv, hp⟩⟩
        · exact .inr (hcover v hv hPv)
    rw [hallP, hallW, not_iff_not]
    exact Iff.comm

section column
variable [F64 F] {python : Interpreter F} {libraries : Libraries F} {table : Table F}
  {check : Check F} {column : String}

/-- The verdicts of a check of the values of a column. -/
theorem same_column_verdict_iff
    (hpython : check.passes python table = true ↔ check.Made python ∧
      ∃ values, table.columns.lookup column = some values ∧
        ∀ value ∈ values, Accepts python check value)
    (hworker : check.worker_passes libraries table = true ↔ row_count table.columns ≠ 0 ∧
      ∃ values, table.columns.lookup column = some values ∧
        ∀ value ∈ values, WorkerAccepts libraries check value)
    (hmade : ¬ check.Made python → ∀ value, ¬ Accepts python check value)
    (hkinds : ∀ value, JsonScalar value → (WorkerAccepts libraries check value ↔
      (Accepts python check value ∧ ¬ OnlyPython python libraries check value) ∨
        OnlyWorker python libraries check value))
    (honlyPython : ∀ value, OnlyPython python libraries check value → Accepts python check value)
    (honlyWorker : ∀ value, OnlyWorker python libraries check value →
      ¬ Accepts python check value) :
    check.passes python table = check.worker_passes libraries table ↔
      SameColumnVerdict python libraries table check column := by
  rw [Bool.eq_iff_iff, hpython, hworker, SameColumnVerdict]
  cases hlookup : table.columns.lookup column with
  | none =>
    refine iff_of_true (iff_of_false ?_ ?_) (by rintro _ ⟨⟩)
    · rintro ⟨-, _, ⟨⟩, -⟩
    · rintro ⟨-, _, ⟨⟩, -⟩
  | some values =>
    have hlength := Table.length_of_lookup hlookup
    simp only [Option.some.injEq, exists_eq_left', forall_eq']
    by_cases hnil : values = []
    · subst hnil
      rw [← hlength]
      simp
    · have hrows : row_count table.columns ≠ 0 := by
        rw [← hlength]
        exact mt List.length_eq_zero_iff.mp hnil
      have hpasses : (check.Made python ∧ ∀ value ∈ values, Accepts python check value) ↔
          ∀ value ∈ values, Accepts python check value := by
        refine and_iff_right_of_imp fun h => by_contra fun hnot => ?_
        obtain ⟨value, hvalue⟩ := List.exists_mem_of_ne_nil _ hnil
        exact hmade hnot value (h value hvalue)
      rw [hpasses, and_iff_right hrows, and_iff_right fun h => absurd h hnil,
        imp_iff_right hnil]
      exact same_verdict_of_kinds
        (fun v hv => hkinds v (Table.scalar_of_lookup hlookup v hv)) honlyPython honlyWorker

end column

/-! ### Ranges -/

section between
variable [F64 F] {python : Interpreter F} {column : String} {min_value max_value : Value F}

/-- Rounding keeps the order. -/
theorem as_f64_le (hdoc : python.Documented) {m n : Number F} {a b : Rat}
    (hm : F64.is_finite m.as_f64 = true) (hn : F64.is_finite n.as_f64 = true)
    (ha : numeric python (.number m) = some a) (hb : numeric python (.number n) = some b)
    (hle : a ≤ b) : python.value m.as_f64 ≤ python.value n.as_f64 := by
  cases m with
  | int m =>
    cases ha
    cases n with
    | int n =>
      cases hb
      exact hdoc.of_int_le m n hm hn (Rat.intCast_le_intCast.mp hle)
    | float y =>
      cases hb
      exact hdoc.of_int_le_float m y hm hn hle
  | float x =>
    cases ha
    cases n with
    | int n =>
      cases hb
      exact hdoc.float_le_of_int n x hn hm hle
    | float y =>
      cases hb
      exact hle

theorem lt_eq_false (hdoc : python.Documented) {m n : Number F} {a b : Rat}
    (hm : F64.is_finite m.as_f64 = true) (hn : F64.is_finite n.as_f64 = true)
    (ha : numeric python (.number m) = some a) (hb : numeric python (.number n) = some b)
    (hle : a ≤ b) : F64.lt n.as_f64 m.as_f64 = false := by
  rw [Bool.eq_false_iff]
  intro hlt
  have hless := (hdoc.lt_iff _ _ hn hm).mp hlt
  exact absurd (as_f64_le hdoc hm hn ha hb hle) (not_le.mpr hless)

theorem JsonScalar.finite (hdoc : python.Documented) {n : Number F}
    (h : JsonScalar (.number n)) : F64.is_finite n.as_f64 = true := by
  cases n with
  | int n => exact hdoc.finite_of_int n h.1 h.2
  | float x => exact h

/-- A bound that is read and that has a number is a number. -/
theorem bound_of_numeric {value : Value F} {min : Option F} {a : Rat}
    (hbound : bound value = some min) (ha : numeric python value = some a) :
    ∃ m, value = .number m ∧ min = some m.as_f64 := by
  cases value with
  | null => cases ha
  | number m =>
    cases hbound
    exact ⟨m, rfl, rfl⟩
  | _ => cases hbound

/-- A number that is in range exactly is in range after rounding. -/
theorem inRange_of_within (hdoc : python.Documented) {n : Number F} {min max : Option F}
    (hmin : Finite min_value) (hmax : Finite max_value) (hn : JsonScalar (.number n))
    (hreadmin : bound min_value = some min) (hreadmax : bound max_value = some max)
    (hwithin : Within python min_value max_value (.number n)) :
    InRange min max (.number n) := by
  rcases hwithin with ⟨a, lo, hi, ha, hlo, hhi, hle, hle'⟩ | ⟨_, _, _, ⟨⟩, -⟩
  obtain ⟨m, rfl, rfl⟩ := bound_of_numeric hreadmin hlo
  obtain ⟨m', rfl, rfl⟩ := bound_of_numeric hreadmax hhi
  have hfinite := hn.finite hdoc
  exact ⟨lt_eq_false hdoc hmin hfinite hlo ha hle, lt_eq_false hdoc hfinite hmax ha hhi hle'⟩

theorem not_within_string {text : String} {min : Option F} (hreadmin : bound min_value = some min) :
    ¬ Within python min_value max_value (.string text) := by
  rintro (⟨_, _, _, ⟨⟩, -⟩ | ⟨_, lo, _, -, rfl, -⟩)
  cases hreadmin

omit [F64 F] in
/-- What raises no exception and is not counted. -/
theorem outside_eq_ok_false_iff {value : Value F} :
    outside python min_value max_value value = .ok false ↔
      value.is_null = true ∨ Within python min_value max_value value := by
  unfold outside
  by_cases hnull : value.is_null = true
  · rw [if_pos hnull]
    exact iff_of_true rfl (.inl hnull)
  · rw [if_neg hnull, or_iff_right hnull]
    constructor
    · intro h
      cases hlt : lt python value min_value with
      | error e =>
        rw [hlt] at h
        cases h
      | ok below =>
        rw [hlt] at h
        cases below with
        | true => cases h
        | false =>
          have hgt : gt python value max_value = .ok false := h
          rcases lt_eq_ok_iff.mp hlt with ⟨a, lo, ha, hlo, hle⟩ | ⟨text, lo, rfl, rfl, hle⟩
          · rcases gt_eq_ok_iff.mp hgt with ⟨b, hi, hb, hhi, hle'⟩ | ⟨text, hi, rfl, -, -⟩
            · rw [ha] at hb
              cases hb
              exact .inl ⟨a, lo, hi, ha, hlo, hhi, not_lt.mp (of_decide_eq_false hle),
                not_lt.mp (of_decide_eq_false hle')⟩
            · cases ha
          · rcases gt_eq_ok_iff.mp hgt with ⟨b, hi, ⟨⟩, -⟩ | ⟨_, hi, heq, rfl, hle'⟩
            cases heq
            exact .inr ⟨text, lo, hi, rfl, rfl, rfl, of_decide_eq_false hle,
              of_decide_eq_false hle'⟩
    · intro h
      have hcompare : lt python value min_value = .ok false ∧
          gt python value max_value = .ok false := by
        rcases h with ⟨a, lo, hi, ha, hlo, hhi, hle, hle'⟩ |
          ⟨text, lo, hi, rfl, rfl, rfl, hle, hle'⟩
        · exact ⟨lt_eq_ok_iff.mpr (.inl ⟨a, lo, ha, hlo, decide_eq_false (not_lt.mpr hle)⟩),
            gt_eq_ok_iff.mpr (.inl ⟨a, hi, ha, hhi, decide_eq_false (not_lt.mpr hle')⟩)⟩
        · exact ⟨lt_eq_ok_iff.mpr (.inr ⟨text, lo, rfl, rfl, decide_eq_false hle⟩),
            gt_eq_ok_iff.mpr (.inr ⟨text, hi, rfl, rfl, decide_eq_false hle'⟩)⟩
      rw [hcompare.1]
      exact hcompare.2

/-- What the worker accepts of a range. -/
theorem range_kinds {libraries : Libraries F} (hdoc : python.Documented)
    (hmin : Finite min_value) (hmax : Finite max_value) {value : Value F}
    (hscalar : JsonScalar value) :
    WorkerAccepts libraries (.between column min_value max_value) value ↔
      (Accepts python (.between column min_value max_value) value ∧
        ¬ OnlyPython python libraries (.between column min_value max_value) value) ∨
      OnlyWorker python libraries (.between column min_value max_value) value := by
  constructor
  · intro ⟨min, max, hreadmin, hreadmax, hin⟩
    have hread : ¬ (bound min_value = none ∨ bound max_value = none) := by
      rw [hreadmin, hreadmax]
      rintro (⟨⟨⟩⟩ | ⟨⟨⟩⟩)
    cases value with
    | null =>
      refine .inl ⟨.inl rfl, ?_⟩
      intro honly
      cases honly with
      | bounds hbounds _ => exact hread hbounds
    | number n =>
      by_cases hwithin : Within python min_value max_value (.number n)
      · refine .inl ⟨.inr hwithin, ?_⟩
        intro honly
        cases honly with
        | bounds hbounds _ => exact hread hbounds
      · exact .inr (.number hreadmin hreadmax hwithin hin)
    | bool b => cases hin
    | string text => cases hin
    | array items => cases hin
    | object members => cases hin
  · rintro (⟨haccepts, hnot⟩ | honly)
    · cases hreadmin : bound min_value with
      | none => exact absurd (.bounds (.inl hreadmin) haccepts) hnot
      | some min =>
        cases hreadmax : bound max_value with
        | none => exact absurd (.bounds (.inr hreadmax) haccepts) hnot
        | some max =>
          refine ⟨min, max, hreadmin, hreadmax, ?_⟩
          rcases haccepts with hnull | hwithin
          · cases value with
            | null => trivial
            | _ => cases hnull
          · cases value with
            | null => trivial
            | number n => exact inRange_of_within hdoc hmin hmax hscalar hreadmin hreadmax hwithin
            | bool b =>
              refine absurd (.bool ?_ ?_ hwithin) hnot
              · rw [hreadmin]; rfl
              · rw [hreadmax]; rfl
            | string text => exact absurd hwithin (not_within_string hreadmin)
            | array items => exact hscalar.elim
            | object members => exact hscalar.elim
    · cases honly with
      | number hreadmin hreadmax _ hin => exact ⟨_, _, hreadmin, hreadmax, hin⟩

end between

/-! ### Patterns -/

section matches_
variable [F64 F] {python : Interpreter F} {libraries : Libraries F} {column pattern : String}

/-- What the worker accepts of a pattern. -/
theorem pattern_kinds {value : Value F} (hscalar : JsonScalar value) :
    WorkerAccepts libraries (.matches column pattern) value ↔
      (Accepts python (.matches column pattern) value ∧
        ¬ OnlyPython python libraries (.matches column pattern) value) ∨
      OnlyWorker python libraries (.matches column pattern) value := by
  constructor
  · intro ⟨is_match, hregex, hmatch⟩
    cases hcompile : python.compile pattern with
    | error message => exact .inr (.pattern hcompile hregex hmatch)
    | ok matches_start =>
      cases value with
      | null =>
        refine .inl ⟨⟨matches_start, hcompile, .inl rfl⟩, ?_⟩
        intro honly
        cases honly with
        | text_of_value _ _ hnull _ _ => cases hnull
        | pattern _ hregex' _ =>
          rw [hregex] at hregex'
          cases hregex'
      | string text =>
        cases hstart : matches_start text with
        | false => exact .inr (.inside hcompile hregex hstart hmatch)
        | true =>
          refine .inl ⟨⟨matches_start, hcompile, .inr hstart⟩, ?_⟩
          intro honly
          cases honly with
          | text_of_value _ _ _ htext _ => exact htext text rfl
          | not_found _ hregex' _ hnot =>
            rw [hregex] at hregex'
            cases hregex'
            rw [show is_match text = true from hmatch] at hnot
            cases hnot
          | pattern _ hregex' _ =>
            rw [hregex] at hregex'
            cases hregex'
      | bool b => cases hmatch
      | number n => cases hmatch
      | array items => cases hmatch
      | object members => cases hmatch
  · rintro (⟨⟨matches_start, hcompile, haccepts⟩, hnot⟩ | honly)
    · cases hregex : libraries.regex pattern with
      | error e => exact absurd (.pattern hcompile hregex haccepts) hnot
      | ok is_match =>
        refine ⟨is_match, hregex, ?_⟩
        cases value with
        | null => trivial
        | string text =>
          have hstart : matches_start text = true := haccepts.resolve_left (by rintro ⟨⟩)
          by_contra hmatch
          exact hnot (.not_found hcompile hregex hstart (Bool.eq_false_iff.mpr hmatch))
        | bool b =>
          exact absurd (.text_of_value hcompile hregex rfl (by rintro _ ⟨⟩)
            (haccepts.resolve_left (by rintro ⟨⟩))) hnot
        | number n =>
          exact absurd (.text_of_value hcompile hregex rfl (by rintro _ ⟨⟩)
            (haccepts.resolve_left (by rintro ⟨⟩))) hnot
        | array items => exact hscalar.elim
        | object members => exact hscalar.elim
    · cases honly with
      | inside _ hregex _ hmatch => exact ⟨_, hregex, hmatch⟩
      | pattern _ hregex haccepts => exact ⟨_, hregex, haccepts⟩

end matches_

/-! ### Texts of values -/

section texts
variable [F64 F] {python : Interpreter F}

theorem number_head (hdoc : python.Documented) {n : Number F} (h : JsonScalar (.number n)) :
    ∃ c rest, n.to_text.toList = c :: rest ∧ (c.isDigit = true ∨ c = '-') := by
  cases n with
  | int n =>
    obtain ⟨c, rest, hlist⟩ := List.exists_cons_of_ne_nil (toString_int_ne_nil n)
    exact ⟨c, rest, hlist, mem_toString_int (hlist ▸ List.mem_cons_self)⟩
  | float x => exact hdoc.text_head x h

/-- No number has a text that begins otherwise. -/
theorem number_text_ne (hdoc : python.Documented) {n : Number F} (h : JsonScalar (.number n))
    {text : String} {c : Char} (hhead : text.toList.head? = some c) (hdigit : c.isDigit = false)
    (hminus : c ≠ '-') : n.to_text ≠ text := by
  obtain ⟨c', rest', hlist, hnumber⟩ := number_head hdoc h
  rintro rfl
  rw [hlist] at hhead
  cases hhead
  rcases hnumber with hnumber | hnumber
  · rw [hdigit] at hnumber
    cases hnumber
  · exact hminus hnumber

theorem number_text_inj (hdoc : python.Documented) {m n : Number F}
    (hm : JsonScalar (.number m)) (hn : JsonScalar (.number n)) (h : m.to_text = n.to_text) :
    ∃ a, numeric python (.number m) = some a ∧ numeric python (.number n) = some a := by
  cases m with
  | int m =>
    cases n with
    | int n =>
      have hmn : m = n := toString_int_injective h
      exact ⟨m, rfl, by rw [hmn]; rfl⟩
    | float y => exact absurd h.symm (hdoc.text_ne_int y m hn)
  | float x =>
    cases n with
    | int n => exact absurd h (hdoc.text_ne_int x n hm)
    | float y => exact ⟨_, rfl, congrArg some (hdoc.text_inj x y hm hn h).symm⟩

theorem head_null : (Value.null : Value F).to_text.toList.head? = some 'n' := by
  rw [Value.to_text_null]
  rfl

theorem head_bool (b : Bool) :
    (Value.bool b : Value F).to_text.toList.head? = some (if b then 't' else 'f') := by
  rw [Value.to_text_bool]
  cases b <;> rfl

theorem head_string (text : String) :
    (Value.string text : Value F).to_text.toList.head? = some '"' := by
  rw [Value.to_text_string, toList_json_string]
  rfl

/-- What has the text of a number is a number that equals it. -/
theorem eq_of_number_text (hdoc : python.Documented) {n : Number F} {w : Value F}
    (hn : JsonScalar (.number n)) (hw : JsonScalar w) (h : n.to_text = w.to_text) :
    eq python (.number n) w = true := by
  cases w with
  | null => exact absurd h (number_text_ne hdoc hn head_null rfl (by decide))
  | bool b =>
    refine absurd h (number_text_ne hdoc hn (head_bool b) ?_ ?_)
    · cases b <;> rfl
    · cases b <;> decide
  | number m =>
    have hnumbers : n.to_text = m.to_text := by rwa [Value.to_text_number] at h
    obtain ⟨a, ha, hb⟩ := number_text_inj hdoc hn hw hnumbers
    exact eq_iff.mpr (.inl ⟨a, ha, hb⟩)
  | string text => exact absurd h (number_text_ne hdoc hn (head_string text) rfl (by decide))
  | array items => exact hw.elim
  | object members => exact hw.elim

/-- Values with the same text are equal. -/
theorem eq_of_text (hdoc : python.Documented) {v w : Value F} (hv : JsonScalar v)
    (hw : JsonScalar w) (h : v.to_text = w.to_text) : eq python v w = true := by
  -- where no number is involved, the first character tells what it is
  have hhead := congrArg (fun text => text.toList.head?) h
  cases v with
  | number n =>
    rw [Value.to_text_number] at h
    exact eq_of_number_text hdoc hv hw h
  | array items => exact hv.elim
  | object members => exact hv.elim
  | null =>
    rw [head_null] at hhead
    cases w with
    | number m =>
      rw [eq_comm, Value.to_text_number] at h
      exact eq_symm (eq_of_number_text hdoc hw hv h)
    | array items => exact hw.elim
    | object members => exact hw.elim
    | null => rfl
    | bool b =>
      rw [head_bool] at hhead
      cases b <;> cases hhead
    | string text =>
      rw [head_string] at hhead
      cases hhead
  | bool b =>
    rw [head_bool] at hhead
    cases w with
    | number m =>
      rw [eq_comm, Value.to_text_number] at h
      exact eq_symm (eq_of_number_text hdoc hw hv h)
    | array items => exact hw.elim
    | object members => exact hw.elim
    | null =>
      rw [head_null] at hhead
      cases b <;> cases hhead
    | bool b' =>
      rw [head_bool] at hhead
      have hb : b = b' := by
        cases b <;> cases b' <;> first | rfl | cases hhead
      rw [hb, eq_iff]
      exact .inl ⟨_, rfl, rfl⟩
    | string text =>
      rw [head_string] at hhead
      cases b <;> cases hhead
  | string text =>
    rw [head_string] at hhead
    cases w with
    | number m =>
      rw [eq_comm, Value.to_text_number] at h
      exact eq_symm (eq_of_number_text hdoc hw hv h)
    | array items => exact hw.elim
    | object members => exact hw.elim
    | null =>
      rw [head_null] at hhead
      cases hhead
    | bool b =>
      rw [head_bool] at hhead
      cases b <;> cases hhead
    | string text' =>
      rw [Value.to_text_string, Value.to_text_string] at h
      rw [json_string_inj h, eq_iff]
      exact .inr (.inr ⟨_, rfl, rfl⟩)

end texts

/-! ### Sets -/

section in_set
variable [F64 F] {python : Interpreter F} {libraries : Libraries F} {column : String}
  {allowed_values : List (Value F)}

theorem json_int_of_large {n : Int} (hlarge : ¬ (-2 ^ 63 ≤ n ∧ n < 2 ^ 64)) :
    (json_value (.number (.int n)) : Value F) = .number (.float (F64.of_int n)) := if_neg hlarge

/-- A value that a set can have is as it is in JSON, unless it is a large integer. -/
theorem json_value_of_hashable {v : Value F} (hhash : Hashable v) (hfinite : Finite v) :
    (json_value v = v ∧ JsonScalar v) ∨
      ∃ n, v = .number (.int n) ∧ ¬ (-2 ^ 63 ≤ n ∧ n < 2 ^ 64) := by
  cases v with
  | number n =>
    cases n with
    | int n =>
      by_cases hn : -2 ^ 63 ≤ n ∧ n < 2 ^ 64
      · exact .inl ⟨if_pos hn, hn⟩
      · exact .inr ⟨n, rfl, hn⟩
    | float x => exact .inl ⟨rfl, hfinite⟩
  | array items => exact hhash.elim
  | object members => exact hhash.elim
  | _ => exact .inl ⟨rfl, trivial⟩

/-- Only a number of double precision has the text of one. -/
theorem eq_float_of_text (hdoc : python.Documented) {v : Value F} (hv : JsonScalar v) {x : F}
    (hx : F64.is_finite x = true) (h : v.to_text = F64.to_text x) :
    ∃ y, v = .number (.float y) := by
  have hnumber : JsonScalar (.number (.float x) : Value F) := hx
  cases v with
  | number n =>
    rw [Value.to_text_number] at h
    cases n with
    | int n => exact absurd h.symm (hdoc.text_ne_int x n hx)
    | float y => exact ⟨y, rfl⟩
  | null => exact absurd h.symm (number_text_ne hdoc hnumber head_null rfl (by decide))
  | bool b =>
    refine absurd h.symm (number_text_ne hdoc hnumber (head_bool b) ?_ ?_)
    · cases b <;> rfl
    · cases b <;> decide
  | string text =>
    exact absurd h.symm (number_text_ne hdoc hnumber (head_string text) rfl (by decide))
  | array items => exact hv.elim
  | object members => exact hv.elim

/-- A value with a listed text is listed, unless it is a large integer that is listed. -/
theorem listed_of_text (hdoc : python.Documented) (hfinite : ∀ v ∈ allowed_values, Finite v)
    (hset : ∀ v ∈ allowed_values, Hashable v) {value : Value F} (hscalar : JsonScalar value)
    (htext : value.to_text ∈ (allowed_values.map json_value).map Value.to_text) :
    (∃ v ∈ allowed_values, eq python value v = true) ∨
      ∃ x n, value = .number (.float x) ∧ ¬ (-2 ^ 63 ≤ n ∧ n < 2 ^ 64) ∧
        .number (.int n) ∈ allowed_values ∧ F64.to_text x = F64.to_text (F64.of_int n : F) := by
  rw [List.map_map, List.mem_map] at htext
  obtain ⟨v, hv, hsame⟩ := htext
  rw [Function.comp_apply] at hsame
  rcases json_value_of_hashable (hset v hv) (hfinite v hv) with ⟨hjson, hvscalar⟩ |
    ⟨n, rfl, hlarge⟩
  · rw [hjson] at hsame
    exact .inl ⟨v, hv, eq_of_text hdoc hscalar hvscalar hsame.symm⟩
  · rw [json_int_of_large hlarge] at hsame
    have hround : value.to_text = F64.to_text (F64.of_int n : F) := by
      rw [← hsame, Value.to_text_number]
      rfl
    obtain ⟨x, rfl⟩ := eq_float_of_text hdoc hscalar (hfinite _ hv) hround
    rw [Value.to_text_number] at hround
    exact .inr ⟨x, n, rfl, hlarge, hv, hround⟩

/-- What the worker accepts of listed values. -/
theorem set_kinds (hdoc : python.Documented) (hfinite : ∀ v ∈ allowed_values, Finite v)
    {value : Value F} (hscalar : JsonScalar value) :
    WorkerAccepts libraries (.in_set column allowed_values) value ↔
      (Accepts python (.in_set column allowed_values) value ∧
        ¬ OnlyPython python libraries (.in_set column allowed_values) value) ∨
      OnlyWorker python libraries (.in_set column allowed_values) value := by
  constructor
  · intro haccepts
    by_cases hset : ∀ v ∈ allowed_values, Hashable v
    · rcases haccepts with hnull | htext
      · obtain rfl : value = .null := by
          cases value <;> first | rfl | cases hnull
        by_cases hlisted : Value.null ∈ allowed_values
        · refine .inl ⟨⟨hset, .null, hlisted, rfl⟩, ?_⟩
          intro honly
          cases honly with
          | number _ _ hvalue _ _ => cases hvalue
        · exact .inr (.null hset hlisted)
      · by_cases hequal : ∃ v ∈ allowed_values, eq python value v = true
        · refine .inl ⟨⟨hset, hequal⟩, ?_⟩
          intro honly
          cases honly with
          | number _ _ _ _ hnot => exact hnot htext
        · rcases listed_of_text hdoc hfinite hset hscalar htext with h |
            ⟨x, n, rfl, hlarge, hlisted, hround⟩
          · exact absurd h hequal
          · have hnot : ∀ v ∈ allowed_values, eq python (.number (.float x)) v = false :=
              fun v hv => Bool.eq_false_iff.mpr fun h => hequal ⟨v, hv, h⟩
            exact .inr (.rounded hset hnot hlarge hlisted hround)
    · exact .inr (.unhashable hset haccepts)
  · rintro (⟨⟨hset, v, hv, hequal⟩, hnot⟩ | honly)
    · rcases eq_iff.mp hequal with ⟨a, hvalue, hnumeric⟩ | ⟨rfl, -⟩ | ⟨text, rfl, rfl⟩
      · refine .inr ?_
        by_contra htext
        exact hnot (.number hset hv hvalue hnumeric htext)
      · exact .inl rfl
      · exact .inr (List.mem_map_of_mem (List.mem_map.mpr ⟨_, hv, rfl⟩))
    · cases honly with
      | null => exact .inl rfl
      | unhashable _ haccepts => exact haccepts
      | rounded _ _ hlarge hlisted hround =>
        refine .inr (List.mem_map.mpr ⟨_, List.mem_map_of_mem hlisted, ?_⟩)
        rw [json_int_of_large hlarge, Value.to_text_number, Value.to_text_number]
        exact hround.symm

end in_set

/-! ### All checks -/

section verdicts
variable [F64 F] {python : Interpreter F} {libraries : Libraries F}

/-- The verdicts on a column without duplicates. -/
theorem same_unique_verdict_iff (hdoc : python.Documented) (table : Table F) (column : String) :
    (Check.unique column).passes python table =
        (Check.unique column).worker_passes libraries table ↔
      SameUniqueVerdict python table column := by
  rw [Bool.eq_iff_iff, passes_unique, worker_passes_unique, SameUniqueVerdict]
  cases hlookup : table.columns.lookup column with
  | none =>
    constructor
    · intro h hrows
      obtain ⟨_, ⟨⟩, -⟩ := h.mpr (.inl hrows)
    · intro hrows
      refine iff_of_false (by rintro ⟨_, ⟨⟩, -⟩) ?_
      rintro (h | ⟨_, ⟨⟩, -⟩)
      exact hrows h
  | some values =>
    have hscalar := Table.scalar_of_lookup hlookup
    have hlength := Table.length_of_lookup hlookup
    -- values that are not equal have different texts
    have htexts : values.Pairwise (fun v w => eq python v w = false) →
        (values.map Value.to_text).Nodup := by
      rw [List.Nodup, List.pairwise_map]
      refine List.Pairwise.imp_of_mem fun {v w} hv hw hne htext => ?_
      rw [eq_of_text hdoc (hscalar v hv) (hscalar w hw) htext] at hne
      cases hne
    have hempty : row_count table.columns = 0 → (values.map Value.to_text).Nodup := by
      intro hrows
      rw [List.length_eq_zero_iff.mp (hlength.trans hrows)]
      exact List.nodup_nil
    simp only [Option.some.injEq, exists_eq_left']
    rw [or_iff_right_of_imp hempty]
    constructor
    · intro h hnodup
      refine (h.mpr hnodup).imp fun {v w} hne a hv hw => ?_
      rw [eq_iff.mpr (.inl ⟨a, hv, hw⟩)] at hne
      cases hne
    · refine fun h => ⟨htexts, fun hnodup => ?_⟩
      have hpair := (h hnodup).and (List.pairwise_map.mp hnodup)
      refine hpair.imp fun {v w} hvw => Bool.eq_false_iff.mpr fun hequal => ?_
      rcases eq_iff.mp hequal with ⟨a, hv, hw⟩ | ⟨rfl, rfl⟩ | ⟨text, rfl, rfl⟩
      · exact hvw.1 a hv hw
      · exact hvw.2 rfl
      · exact hvw.2 rfl

/-- The verdicts on a range. -/
theorem same_range_verdict_iff (hdoc : python.Documented) {column : String}
    {min_value max_value : Value F} (hmin : Finite min_value) (hmax : Finite max_value)
    (table : Table F) :
    (Check.between column min_value max_value).passes python table =
        (Check.between column min_value max_value).worker_passes libraries table ↔
      SameColumnVerdict python libraries table (.between column min_value max_value) column := by
  refine same_column_verdict_iff ?_ ?_ (fun h => absurd trivial h)
    (fun value hscalar => range_kinds hdoc hmin hmax hscalar) ?_ ?_
  · rw [passes_between]
    simp only [outside_eq_ok_false_iff]
    exact (and_iff_right trivial).symm
  · rw [worker_passes_between]
    constructor
    · intro ⟨min, max, hreadmin, hreadmax, hrows, values, hlookup, hall⟩
      exact ⟨hrows, values, hlookup, fun value hv =>
        ⟨min, max, hreadmin, hreadmax, hall value hv⟩⟩
    · intro ⟨hrows, values, hlookup, hall⟩
      -- there is a row, so that the bounds have been read
      obtain ⟨value, hvalue⟩ := List.exists_mem_of_ne_nil _ (Table.ne_nil_of_rows hlookup hrows)
      obtain ⟨min, max, hreadmin, hreadmax, -⟩ := hall value hvalue
      refine ⟨min, max, hreadmin, hreadmax, hrows, values, hlookup, fun value hv => ?_⟩
      obtain ⟨min', max', hmin', hmax', hin⟩ := hall value hv
      rw [hreadmin] at hmin'
      rw [hreadmax] at hmax'
      cases hmin'
      cases hmax'
      exact hin
  · rintro value (⟨_, _, hwithin⟩ | ⟨_, haccepts⟩)
    · exact .inr hwithin
    · exact haccepts
  · rintro value (⟨_, _, hnot, _⟩) (hnull | hwithin)
    · cases hnull
    · exact hnot hwithin

/-- The verdicts on a pattern. -/
theorem same_pattern_verdict_iff (table : Table F) (column pattern : String) :
    (Check.matches column pattern).passes python table =
        (Check.matches column pattern).worker_passes libraries table ↔
      SameColumnVerdict python libraries table (.matches column pattern) column := by
  refine same_column_verdict_iff ?_ ?_ ?_ (fun value hscalar => pattern_kinds hscalar) ?_ ?_
  · rw [passes_matches]
    constructor
    · intro ⟨matches_start, hcompile, values, hlookup, hall⟩
      exact ⟨⟨matches_start, hcompile⟩, values, hlookup, fun value hv =>
        ⟨matches_start, hcompile, hall value hv⟩⟩
    · intro ⟨⟨matches_start, hcompile⟩, values, hlookup, hall⟩
      refine ⟨matches_start, hcompile, values, hlookup, fun value hv => ?_⟩
      obtain ⟨matches_start', hcompile', h⟩ := hall value hv
      rw [hcompile] at hcompile'
      cases hcompile'
      exact h
  · rw [worker_passes_matches]
    constructor
    · intro ⟨is_match, hregex, hrows, values, hlookup, hall⟩
      exact ⟨hrows, values, hlookup, fun value hv => ⟨is_match, hregex, hall value hv⟩⟩
    · intro ⟨hrows, values, hlookup, hall⟩
      obtain ⟨value, hvalue⟩ := List.exists_mem_of_ne_nil _ (Table.ne_nil_of_rows hlookup hrows)
      obtain ⟨is_match, hregex, -⟩ := hall value hvalue
      refine ⟨is_match, hregex, hrows, values, hlookup, fun value hv => ?_⟩
      obtain ⟨is_match', hregex', h⟩ := hall value hv
      rw [hregex] at hregex'
      cases hregex'
      exact h
  · rintro hmade value ⟨matches_start, hcompile, -⟩
    exact hmade ⟨matches_start, hcompile⟩
  · intro value honly
    cases honly with
    | text_of_value hcompile _ _ _ hmatch => exact ⟨_, hcompile, .inr hmatch⟩
    | not_found hcompile _ hmatch _ => exact ⟨_, hcompile, .inr hmatch⟩
    | pattern hcompile _ haccepts => exact ⟨_, hcompile, haccepts⟩
  · intro value honly ⟨matches_start, hcompile, haccepts⟩
    cases honly with
    | inside hcompile' _ hnot _ =>
      rw [hcompile] at hcompile'
      cases hcompile'
      rcases haccepts with hnull | hmatch
      · cases hnull
      · rw [str, hnot] at hmatch
        cases hmatch
    | pattern hcompile' _ _ =>
      rw [hcompile] at hcompile'
      cases hcompile'

/-- The verdicts on listed values. -/
theorem same_set_verdict_iff (hdoc : python.Documented) {column : String}
    {allowed_values : List (Value F)} (hfinite : ∀ v ∈ allowed_values, Finite v)
    (table : Table F) :
    (Check.in_set column allowed_values).passes python table =
        (Check.in_set column allowed_values).worker_passes libraries table ↔
      SameColumnVerdict python libraries table (.in_set column allowed_values) column := by
  refine same_column_verdict_iff ?_ worker_passes_in_set (fun h _ haccepts => h haccepts.1)
    (fun value hscalar => set_kinds hdoc hfinite hscalar) ?_ ?_
  · rw [passes_in_set]
    constructor
    · intro ⟨hset, values, hlookup, hall⟩
      exact ⟨hset, values, hlookup, fun value hv => ⟨hset, hall value hv⟩⟩
    · intro ⟨hset, values, hlookup, hall⟩
      exact ⟨hset, values, hlookup, fun value hv => (hall value hv).2⟩
  · intro value honly
    cases honly with
    | number hset hlisted hvalue hequal _ =>
      exact ⟨hset, _, hlisted, eq_iff.mpr (.inl ⟨_, hvalue, hequal⟩)⟩
  · intro value honly ⟨hset, v, hv, hequal⟩
    cases honly with
    | null _ hnot =>
      rcases eq_iff.mp hequal with ⟨_, ⟨⟩, -⟩ | ⟨-, rfl⟩ | ⟨_, ⟨⟩, -⟩
      exact hnot hv
    | unhashable hnot _ => exact hnot hset
    | rounded _ hnot _ _ _ =>
      rw [hnot v hv] at hequal
      cases hequal

end verdicts

/-- One column with one value. -/
def one_value (value : Value Int) (h : JsonScalar value) : Table Int where
  columns := [("status", [value])]
  nodup := List.nodup_singleton _
  length_eq column hcolumn := by
    rw [List.mem_singleton.mp hcolumn]
    rfl
  scalar column hcolumn v hv := by
    rw [List.mem_singleton.mp hcolumn] at hv
    rw [List.mem_singleton.mp hv]
    exact h

end Servo.Python
