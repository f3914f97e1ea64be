import Servo.Core.Quality
import Mathlib.Algebra.Order.Ring.Rat

/-! # Data Quality Checks in Python

    `servo.quality`: the checks that can be put on an asset, run on a dict of
    column lists, and the JSON that is made of them for the worker.

    Values are those that JSON has. What Python makes of a double-precision
    number, the text of a collection and regular expressions are parameters.
-/

namespace Servo.Python

open Quality (CheckOutcome)

variable {F : Type}

/-! ### Values -/

/-- What the checks use of the interpreter. -/
structure Interpreter (F : Type) where
  /-- The exact value of a finite number. -/
  value : F → Rat
  /-- `str(x)` of a number. -/
  float_str : F → String
  /-- `str` of a list or a dict. -/
  collection_str : Value F → String
  /-- `repr` of a string. -/
  repr : String → String
  /-- `re.compile`, with `match` of what it gives. -/
  compile : String → Except String (String → Bool)

/-- The exceptions that a check can run into. -/
inductive Exception (F : Type) where
  | KeyError (key : String)
  /-- `'<'` or `'>'` between values that cannot be compared. -/
  | NotSupported (operator : String) (left right : Value F)
  | Unhashable (value : Value F)
  /-- `re.error`. -/
  | Pattern (message : String)

/-- The name of the type of a value. -/
def type_name : Value F → String
  | .null => "NoneType"
  | .bool _ => "bool"
  | .number (.int _) => "int"
  | .number (.float _) => "float"
  | .string _ => "str"
  | .array _ => "list"
  | .object _ => "dict"

section
variable (python : Interpreter F)

/-- `str(e)`. -/
def Exception.to_text : Exception F → String
  | .KeyError key => python.repr key
  | .NotSupported operator left right =>
    "'" ++ operator ++ "' not supported between instances of '" ++ type_name left ++ "' and '" ++
      type_name right ++ "'"
  | .Unhashable value => "unhashable type: '" ++ type_name value ++ "'"
  | .Pattern message => message

/-- `str(value)`. -/
def str : Value F → String
  | .null => "None"
  | .bool b => if b then "True" else "False"
  | .number (.int n) => toString n
  | .number (.float x) => python.float_str x
  | .string text => text
  | value => python.collection_str value

/-- The number that a value is: `True` is 1, and `False` is 0. -/
def numeric : Value F → Option Rat
  | .bool b => some (if b then 1 else 0)
  | .number (.int n) => some n
  | .number (.float x) => some (python.value x)
  | _ => none

/-- `v == w` of scalars. -/
def eq (v w : Value F) : Bool :=
  match numeric python v, numeric python w with
  | some a, some b => a = b
  | none, none =>
    match v, w with
    | .null, .null => true
    | .string s, .string t => s = t
    | _, _ => false
  | _, _ => false

/-- `v < w`, where the left one is a scalar. -/
def lt (v w : Value F) : Except (Exception F) Bool :=
  match numeric python v, numeric python w with
  | some a, some b => .ok (a < b)
  | _, _ =>
    match v, w with
    | .string s, .string t => .ok (s < t)
    | _, _ => .error (.NotSupported "<" v w)

/-- `v > w`. -/
def gt (v w : Value F) : Except (Exception F) Bool :=
  match numeric python v, numeric python w with
  | some a, some b => .ok (b < a)
  | _, _ =>
    match v, w with
    | .string s, .string t => .ok (t < s)
    | _, _ => .error (.NotSupported ">" v w)

/-- One more element of a set, unless it has an equal one. -/
def add_element (elements : List (Value F)) (v : Value F) : List (Value F) :=
  if elements.any (eq python v) then elements else v :: elements

/-- `elements.add(v)`. -/
def add (elements : List (Value F)) (v : Value F) : Except (Exception F) (List (Value F)) :=
  match v with
  | .array _ | .object _ => .error (.Unhashable v)
  | v => .ok (add_element python elements v)

/-- `set(values)`. -/
def set (values : List (Value F)) : Except (Exception F) (List (Value F)) :=
  values.foldlM (add python) []

end

/-! ### Tables -/

/-- A value that JSON has, and that is no list and no dict: integers have 64 bits, other
    numbers are finite. -/
def JsonScalar [F64 F] : Value F → Prop
  | .number (.int n) => -2 ^ 63 ≤ n ∧ n < 2 ^ 64
  | .number (.float x) => F64.is_finite x = true
  | .array _ | .object _ => False
  | _ => True

/-- The number of rows of a dict of columns. -/
def row_count : List (String × List (Value F)) → Nat
  | [] => 0
  | (_, values) :: _ => values.length

/-- A dict of equally long lists. -/
structure Table (F : Type) [F64 F] where
  columns : List (String × List (Value F))
  nodup : (columns.map Prod.fst).Nodup
  length_eq : ∀ column ∈ columns, column.2.length = row_count columns
  scalar : ∀ column ∈ columns, ∀ value ∈ column.2, JsonScalar value

namespace Table
variable [F64 F] (table : Table F)

/-- The fields of a row, in the order of their names. -/
def row (i : Nat) : Value F :=
  .object ((table.columns.mergeSort fun c c' => decide (c.1 ≤ c'.1)).map fun (name, values) =>
    (name, values.getD i .null))

/-- The table row by row. -/
def rows : List (Value F) := (List.range (row_count table.columns)).map table.row

/-- `data[name]`. -/
def column (name : String) : Except (Exception F) (List (Value F)) :=
  match table.columns.lookup name with
  | some values => .ok values
  | none => .error (.KeyError name)

end Table

/-! ### Checks -/

/-- The checks over rows that decorators add to an asset. -/
inductive Check (F : Type) where
  | not_null (column : String)
  | unique (column : String)
  | between (column : String) (min_value max_value : Value F)
  | matches (column pattern : String)
  | in_set (column : String) (allowed_values : List (Value F))
  | row_count (min_count max_count : Option Int)

/-- An `int` in JSON, as it is read: one that is too large for 64 bits is read as a
    double-precision number. -/
def json_int [F64 F] (n : Int) : Value F :=
  if -2 ^ 63 ≤ n ∧ n < 2 ^ 64 then .number (.int n) else .number (.float (F64.of_int n))

mutual

/-- A value in JSON, as it is read. -/
def json_value [F64 F] : Value F → Value F
  | .number (.int n) => json_int n
  | .array items => .array (json_items items)
  | .object members => .object (json_members members)
  | value => value

/-- The items of a list in JSON. -/
def json_items [F64 F] : List (Value F) → List (Value F)
  | [] => []
  | item :: items => json_value item :: json_items items

/-- The members of a dict in JSON. -/
def json_members [F64 F] : List (String × Value F) → List (String × Value F)
  | [] => []
  | (name, value) :: members => (name, json_value value) :: json_members members

end

/-- `to_rust_check_type` of the definition that the decorator registers. -/
def Check.to_rust_check_type [F64 F] : Check F → Value F
  | .not_null column => .object [("columns", .array [.string column]), ("type", .string "not_null")]
  | .unique column => .object [("columns", .array [.string column]), ("type", .string "unique")]
  | .between column min_value max_value =>
    .object [("column", .string column), ("max", json_value max_value),
      ("min", json_value min_value), ("type", .string "in_range")]
  | .matches column pattern =>
    .object [("column", .string column), ("pattern", .string pattern), ("type", .string "regex")]
  | .in_set column allowed_values =>
    .object [("column", .string column), ("type", .string "accepted_values"),
      ("values", .array (json_items allowed_values))]
  | .row_count min_count max_count =>
    .object [("max", .of_option json_int max_count), ("min", .of_option json_int min_count),
      ("type", .string "row_count")]

/-- `CheckResult`, as far as the check decides it. -/
structure CheckResult where
  check_name : String
  status : CheckOutcome
  message : Option String
  rows_checked : Option Nat
  rows_failed : Option Nat

/-- What the expectations have in common: a result for the rows that fail among all, and one
    for an exception. -/
def expectation (python : Interpreter F) (check_name what : String) (message : Nat → String)
    (counts : Except (Exception F) (Nat × Nat)) : CheckResult :=
  match counts with
  | .ok (failed, total) =>
    if failed = 0 then ⟨check_name, .Passed, none, some total, none⟩
    else ⟨check_name, .Failed, some (message failed), some total, some failed⟩
  | .error e =>
    ⟨check_name, .Error, some ("Error checking " ++ what ++ ": " ++ e.to_text python), none, none⟩

section run
variable [F64 F] (python : Interpreter F) (table : Table F)

/-- `ColumnExpectation.not_null`. -/
def not_null (column : String) : CheckResult :=
  expectation python ("not_null_" ++ column) "not_null"
    (fun null_count => "Column '" ++ column ++ "' has " ++ toString null_count ++ " null values")
    do
      let values ← table.column column
      return (values.countP Value.is_null, values.length)

/-- `ColumnExpectation.unique`. -/
def unique (column : String) : CheckResult :=
  expectation python ("unique_" ++ column) "unique"
    (fun dup_count => "Column '" ++ column ++ "' has " ++ toString dup_count ++
      " duplicate values")
    do
      let values ← table.column column
      let elements ← set python values
      return (values.length - elements.length, values.length)

/-- `v is not None and (v < min_value or v > max_value)`. -/
def outside (min_value max_value v : Value F) : Except (Exception F) Bool :=
  if v.is_null then .ok false
  else do
    if ← lt python v min_value then return true
    gt python v max_value

/-- `ColumnExpectation.to_be_between`. -/
def to_be_between (column : String) (min_value max_value : Value F) : CheckResult :=
  expectation python ("between_" ++ column) "between"
    (fun out_of_range => "Column '" ++ column ++ "' has " ++ toString out_of_range ++
      " values outside [" ++ str python min_value ++ ", " ++ str python max_value ++ "]")
    do
      let col_data ← table.column column
      let out_of_range ← col_data.foldlM (fun count v => do
        if ← outside python min_value max_value v then return count + 1
        return count) 0
      return (out_of_range, table.columns.length)

/-- `ColumnExpectation.to_match_regex`, which compiles the pattern before it checks. -/
def to_match_regex (column pattern : String) : Except (Exception F) CheckResult :=
  match python.compile pattern with
  | .error message => .error (.Pattern message)
  | .ok matches_start =>
    .ok (expectation python ("regex_" ++ column) "regex"
      (fun non_match => "Column '" ++ column ++ "' has " ++ toString non_match ++
        " values not matching pattern")
      do
        let col_data ← table.column column
        return (col_data.countP fun v => !v.is_null && !matches_start (str python v),
          table.columns.length))

/-- `ColumnExpectation.to_be_in`, which makes a set of the values before it checks. -/
def to_be_in (column : String) (allowed_values : List (Value F)) :
    Except (Exception F) CheckResult :=
  match set python allowed_values with
  | .error e => .error e
  | .ok allowed_set =>
    .ok (expectation python ("in_set_" ++ column) "in_set"
      (fun not_in => "Column '" ++ column ++ "' has " ++ toString not_in ++
        " values not in allowed set")
      do
        let col_data ← table.column column
        return (col_data.countP fun v => !allowed_set.any (eq python v), table.columns.length))

/-- The check that `check.row_count` makes. The rows are counted with `len(data)`, which is the
    number of columns of a dict. -/
def run_row_count (min_count max_count : Option Int) : CheckResult :=
  let actual_row_count := table.columns.length
  let min_val := min_count.getD 0
  let max_text := match max_count with
    | some max_val => toString max_val
    | none => "inf"
  if min_val ≤ actual_row_count ∧
      max_count.all (fun max_val => (actual_row_count : Int) ≤ max_val) then
    ⟨"row_count", .Passed, none, some actual_row_count, none⟩
  else
    ⟨"row_count", .Failed, some ("Row count " ++ toString actual_row_count ++ " not in range [" ++
      toString min_val ++ ", " ++ max_text ++ "]"), some actual_row_count, none⟩

/-- The call of a check; an exception leaves it as a `CheckExecutionError`. -/
def Check.run : Check F → Except (Exception F) CheckResult
  | .not_null column => .ok (Python.not_null python table column)
  | .unique column => .ok (Python.unique python table column)
  | .between column min_value max_value =>
    .ok (to_be_between python table column min_value max_value)
  | .matches column pattern => to_match_regex python table column pattern
  | .in_set column allowed_values => to_be_in python table column allowed_values
  | .row_count min_count max_count => .ok (run_row_count table min_count max_count)

/-- The verdict: a check passes, or it does not. -/
def Check.passes (check : Check F) : Bool :=
  match check.run python table with
  | .ok result => result.status = .Passed
  | .error _ => false

end run

/-! ### Equality, order and sets -/

section sets
variable {python : Interpreter F}

/-- Numbers are equal by value, whatever their types. -/
theorem eq_iff {v w : Value F} :
    eq python v w = true ↔ (∃ a, numeric python v = some a ∧ numeric python w = some a) ∨
      (v = .null ∧ w = .null) ∨ ∃ text, v = .string text ∧ w = .string text := by
  unfold eq
  cases hv : numeric python v with
  | some a =>
    have hnull : v ≠ .null := by rintro rfl; cases hv
    have hstring : ∀ text, v ≠ .string text := by rintro text rfl; cases hv
    cases hw : numeric python w with
    | some b => simp [hnull, hstring, eq_comm]
    | none => simp [hnull, hstring]
  | none =>
    cases hw : numeric python w with
    | some b =>
      have hnull : w ≠ .null := by rintro rfl; cases hw
      have hstring : ∀ text, w ≠ .string text := by rintro text rfl; cases hw
      simp [hnull, hstring]
    | none => cases v <;> cases w <;> simp [eq_comm]

theorem eq_symm {v w : Value F} (h : eq python v w = true) : eq python w v = true := by
  rw [eq_iff] at h ⊢
  rcases h with ⟨a, hv, hw⟩ | ⟨hv, hw⟩ | ⟨text, hv, hw⟩
  · exact .inl ⟨a, hw, hv⟩
  · exact .inr (.inl ⟨hw, hv⟩)
  · exact .inr (.inr ⟨text, hw, hv⟩)

theorem eq_trans {u v w : Value F} (h : eq python u v = true) (h' : eq python v w = true) :
    eq python u w = true := by
  rw [eq_iff] at h h' ⊢
  rcases h with ⟨a, hu, hv⟩ | ⟨hu, rfl⟩ | ⟨text, hu, rfl⟩
  · rcases h' with ⟨b, hv', hw⟩ | ⟨rfl, -⟩ | ⟨text, rfl, -⟩
    · rw [hv] at hv'
      cases hv'
      exact .inl ⟨a, hu, hw⟩
    · cases hv
    · cases hv
  · rcases h' with ⟨b, ⟨⟩, -⟩ | ⟨-, hw⟩ | ⟨text, ⟨⟩, -⟩
    exact .inr (.inl ⟨hu, hw⟩)
  · rcases h' with ⟨b, ⟨⟩, -⟩ | ⟨⟨⟩, -⟩ | ⟨text', heq, hw⟩
    cases heq
    exact .inr (.inr ⟨text, hu, hw⟩)

/-- What compares: numbers, and texts. -/
theorem lt_eq_ok_iff {v w : Value F} {b : Bool} :
    lt python v w = .ok b ↔
      (∃ x y, numeric python v = some x ∧ numeric python w = some y ∧ decide (x < y) = b) ∨
        ∃ s t, v = .string s ∧ w = .string t ∧ decide (s < t) = b := by
  unfold lt
  cases hv : numeric python v with
  | some x =>
    have hstring : ∀ s, v ≠ .string s := by rintro s rfl; cases hv
    cases hw : numeric python w with
    | some y => simp [hstring]
    | none => simp [hstring]
  | none => cases v <;> cases w <;> simp

theorem gt_eq_ok_iff {v w : Value F} {b : Bool} :
    gt python v w = .ok b ↔
      (∃ x y, numeric python v = some x ∧ numeric python w = some y ∧ decide (y < x) = b) ∨
        ∃ s t, v = .string s ∧ w = .string t ∧ decide (t < s) = b := by
  unfold gt
  cases hv : numeric python v with
  | some x =>
    have hstring : ∀ s, v ≠ .string s := by rintro s rfl; cases hv
    cases hw : numeric python w with
    | some y => simp [hstring]
    | none => simp [hstring]
  | none => cases v <;> cases w <;> simp

/-- A value that a set can have. -/
def Hashable : Value F → Prop
  | .array _ | .object _ => False
  | _ => True

theorem JsonScalar.hashable [F64 F] {v : Value F} (h : JsonScalar v) : Hashable v := by
  cases v with
  | array _ => exact h
  | object _ => exact h
  | _ => trivial

theorem add_eq_ok {v : Value F} (h : Hashable v) (elements : List (Value F)) :
    add python elements v = .ok (add_element python elements v) := by
  cases v with
  | array _ => exact h.elim
  | object _ => exact h.elim
  | _ => rfl

theorem add_eq_error {v : Value F} (h : ¬ Hashable v) (elements : List (Value F)) :
    add python elements v = .error (.Unhashable v) := by
  cases v with
  | array _ => rfl
  | object _ => rfl
  | _ => exact absurd trivial h

/-- A set is made one value after the other. -/
theorem foldlM_add {values : List (Value F)} (h : ∀ v ∈ values, Hashable v)
    (elements : List (Value F)) :
    values.foldlM (add python) elements = .ok (values.foldl (add_element python) elements) := by
  induction values generalizing elements with
  | nil => rfl
  | cons v values ih =>
    rw [List.forall_mem_cons] at h
    rw [List.foldlM_cons, add_eq_ok h.1, List.foldl_cons, ← ih h.2]
    rfl

theorem set_eq_ok {values : List (Value F)} (h : ∀ v ∈ values, Hashable v) :
    set python values = .ok (values.foldl (add_element python) []) := foldlM_add h []

theorem foldlM_add_error {values : List (Value F)} (h : ¬ ∀ v ∈ values, Hashable v)
    (elements : List (Value F)) : ∃ e, values.foldlM (add python) elements = .error e := by
  induction values generalizing elements with
  | nil => exact absurd (fun _ hv => by cases hv) h
  | cons v values ih =>
    rw [List.forall_mem_cons, not_and_or] at h
    rw [List.foldlM_cons]
    by_cases hv : Hashable v
    · rw [add_eq_ok hv]
      exact ih (h.resolve_left fun hnot => hnot hv) _
    · rw [add_eq_error hv]
      exact ⟨_, rfl⟩

variable (python) in
theorem set_eq_error {values : List (Value F)} (h : ¬ ∀ v ∈ values, Hashable v) :
    ∃ e, set python values = .error e := foldlM_add_error h []

/-- The elements of a set are those it is made of, up to equality. -/
theorem any_foldl_add_element (values elements : List (Value F)) (v : Value F) :
    (values.foldl (add_element python) elements).any (eq python v) =
      (elements.any (eq python v) || values.any (eq python v)) := by
  induction values generalizing elements with
  | nil => simp
  | cons w values ih =>
    rw [List.foldl_cons, ih, List.any_cons, ← Bool.or_assoc]
    congr 1
    unfold add_element
    split
    · next hdup =>
      -- what equals the new value equals the element that is there
      cases hvw : eq python v w with
      | false => rw [Bool.or_false]
      | true =>
        obtain ⟨e, he, hwe⟩ := List.any_eq_true.mp hdup
        rw [Bool.or_true]
        exact List.any_eq_true.mpr ⟨e, he, eq_trans hvw hwe⟩
    · rw [List.any_cons, Bool.or_comm]

theorem any_set {values elements : List (Value F)} (h : set python values = .ok elements)
    (v : Value F) : elements.any (eq python v) = values.any (eq python v) := by
  by_cases hall : ∀ v ∈ values, Hashable v
  · rw [set_eq_ok hall] at h
    cases h
    rw [any_foldl_add_element]
    rfl
  · obtain ⟨e, he⟩ := set_eq_error python hall
    rw [he] at h
    cases h

/-- A set is as long as the list it is made of, if no two values are equal. -/
theorem length_foldl_add_element (values elements : List (Value F)) :
    (values.foldl (add_element python) elements).length ≤ elements.length + values.length ∧
    ((values.foldl (add_element python) elements).length = elements.length + values.length ↔
      values.Pairwise (fun v w => eq python v w = false) ∧
        ∀ v ∈ values, elements.any (eq python v) = false) := by
  induction values generalizing elements with
  | nil => simp
  | cons v values ih =>
    rw [List.foldl_cons, List.length_cons, List.pairwise_cons, List.forall_mem_cons]
    cases hdup : elements.any (eq python v) with
    | true =>
      have hsame : add_element python elements v = elements := if_pos hdup
      rw [hsame]
      have hle := (ih elements).1
      refine ⟨by omega, iff_of_false (by omega) fun h => ?_⟩
      cases h.2.1
    | false =>
      have hadd : add_element python elements v = v :: elements := by
        rw [add_element, hdup]
        rfl
      rw [hadd]
      obtain ⟨hle, hiff⟩ := ih (v :: elements)
      rw [List.length_cons] at hle hiff
      refine ⟨by omega, ?_⟩
      rw [show elements.length + (values.length + 1) = elements.length + 1 + values.length by omega,
        hiff]
      simp only [List.any_cons, Bool.or_eq_false_iff]
      have hsymm : ∀ w, eq python w v = false ↔ eq python v w = false := fun w => by
        rw [Bool.eq_false_iff, Bool.eq_false_iff]
        exact not_congr ⟨eq_symm, eq_symm⟩
      constructor
      · intro ⟨hpair, hall⟩
        exact ⟨⟨fun w hw => (hsymm w).mp (hall w hw).1, hpair⟩, trivial, fun w hw => (hall w hw).2⟩
      · rintro ⟨⟨hfirst, hpair⟩, -, hall⟩
        exact ⟨hpair, fun w hw => ⟨(hsymm w).mpr (hfirst w hw), hall w hw⟩⟩

end sets

end Servo.Python
