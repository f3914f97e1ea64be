import Servo.Python.TableRows
import Servo.Worker.CheckWire

/-! # Verdicts of the SDK and of the Worker

    A check of the SDK runs where the asset is defined, on its columns, and in
    the worker, on its rows, after a trip through JSON. When each of the two
    passes a table, in terms of the values that it accepts.
-/

namespace Servo.Python

open CheckValidator (AssetOutput Libraries InRange Matches Accepted)

variable {F : Type}

/-! ### When the SDK passes a table -/

section expectations
variable {python : Interpreter F}

theorem passed_expectation {check_name what : String} {message : Nat → String}
    {counts : Except (Exception F) (Nat × Nat)} :
    (expectation python check_name what message counts).status = .Passed ↔
      ∃ total, counts = .ok (0, total) := by
  cases counts with
  | error e => exact iff_of_false (by rintro ⟨⟩) (by rintro ⟨_, ⟨⟩⟩)
  | ok counts =>
    obtain ⟨failed, total⟩ := counts
    unfold expectation
    dsimp only
    by_cases hfailed : failed = 0
    · subst hfailed
      exact iff_of_true rfl ⟨total, rfl⟩
    · rw [if_neg hfailed]
      refine iff_of_false (by rintro ⟨⟩) ?_
      intro ⟨_, heq⟩
      cases heq
      exact hfailed rfl

theorem ok_zero_iff {failed total : Nat} :
    (∃ total', (.ok (failed, total) : Except (Exception F) (Nat × Nat)) = .ok (0, total')) ↔
      failed = 0 := by
  constructor
  · intro ⟨_, heq⟩
    exact congrArg Prod.fst (Except.ok.inj heq)
  · intro h
    exact ⟨total, by rw [h]⟩

theorem bind_zero_iff {failed : Except (Exception F) Nat} {total : Nat} :
    (∃ total', (failed >>= fun failed => pure (failed, total)) = .ok (0, total')) ↔
      failed = .ok 0 := by
  cases failed with
  | error e => exact iff_of_false (by rintro ⟨_, ⟨⟩⟩) (by rintro ⟨⟩)
  | ok failed => exact ok_zero_iff.trans ⟨congrArg Except.ok, Except.ok.inj⟩

/-- The sum over a column of what raises no exception. -/
theorem count_foldlM (test : Value F → Except (Exception F) Bool) (values : List (Value F))
    (count : Nat) :
    values.foldlM (fun count v => do
      if ← test v then return count + 1
      return count) count = .ok 0 ↔ count = 0 ∧ ∀ v ∈ values, test v = .ok false := by
  induction values generalizing count with
  | nil => simp [pure, Except.pure]
  | cons v values ih =>
    rw [List.foldlM_cons, List.forall_mem_cons]
    cases htest : test v with
    | error e => exact iff_of_false (by rintro ⟨⟩) (by rintro ⟨-, ⟨⟩, -⟩)
    | ok b =>
      cases b with
      | true =>
        refine (ih (count + 1)).trans (iff_of_false ?_ ?_)
        · rintro ⟨⟨⟩, -⟩
        · rintro ⟨-, ⟨⟩, -⟩
      | false => exact (ih count).trans (by simp)

end expectations

section passes
variable [F64 F] {python : Interpreter F} {table : Table F} {column : String}

/-- An expectation about the values of a column. -/
theorem passed_column {check_name what : String} {message : Nat → String}
    {counts : List (Value F) → Except (Exception F) (Nat × Nat)} :
    (expectation python check_name what message
      (table.column column >>= counts)).status = .Passed ↔
      ∃ values, table.columns.lookup column = some values ∧
        ∃ total, counts values = .ok (0, total) := by
  rw [passed_expectation, Table.column]
  cases hlookup : table.columns.lookup column with
  | none =>
    refine iff_of_false ?_ (by rintro ⟨_, ⟨⟩, -⟩)
    rintro ⟨_, ⟨⟩⟩
  | some values => exact ⟨fun h => ⟨values, rfl, h⟩, by rintro ⟨_, ⟨⟩, h⟩; exact h⟩

theorem passes_iff {check : Check F} : check.passes python table = true ↔
    ∃ result, check.run python table = .ok result ∧ result.status = .Passed := by
  unfold Check.passes
  cases check.run python table <;> simp

omit [F64 F] in
theorem exists_ok_iff {result : CheckResult} :
    (∃ r, (Except.ok result : Except (Exception F) _) = .ok r ∧ r.status = .Passed) ↔
      result.status = .Passed := by
  simp

theorem passes_not_null :
    (Check.not_null column).passes python table = true ↔
      ∃ values, table.columns.lookup column = some values ∧
        ∀ value ∈ values, value.is_null = false := by
  refine decide_eq_true_iff.trans (passed_column.trans ?_)
  refine exists_congr fun values => and_congr_right fun _ => ok_zero_iff.trans ?_
  rw [List.countP_eq_zero]
  exact forall₂_congr fun _ _ => Bool.eq_false_iff.symm

theorem passes_unique :
    (Check.unique column).passes python table = true ↔
      ∃ values, table.columns.lookup column = some values ∧
        values.Pairwise fun v w => eq python v w = false := by
  refine decide_eq_true_iff.trans (passed_column.trans ?_)
  refine exists_congr fun values => and_congr_right fun hvalues => ?_
  rw [set_eq_ok fun v hv => (Table.scalar_of_lookup hvalues v hv).hashable]
  refine ok_zero_iff.trans ?_
  obtain ⟨hle, hiff⟩ := @length_foldl_add_element _ python values []
  rw [List.length_nil, Nat.zero_add] at hle hiff
  have hpair : (values.foldl (add_element python) []).length = values.length ↔
      values.Pairwise fun v w => eq python v w = false := by
    rw [hiff]
    exact and_iff_left fun _ _ => rfl
  rw [← hpair]
  omega

theorem passes_between {min_value max_value : Value F} :
    (Check.between column min_value max_value).passes python table = true ↔
      ∃ values, table.columns.lookup column = some values ∧
        ∀ value ∈ values, outside python min_value max_value value = .ok false := by
  refine decide_eq_true_iff.trans (passed_column.trans ?_)
  refine exists_congr fun values => and_congr_right fun _ => bind_zero_iff.trans ?_
  exact (count_foldlM _ values 0).trans (and_iff_right rfl)

theorem passes_matches {pattern : String} :
    (Check.matches column pattern).passes python table = true ↔
      ∃ matches_start, python.compile pattern = .ok matches_start ∧
        ∃ values, table.columns.lookup column = some values ∧
          ∀ value ∈ values, value.is_null = true ∨ matches_start (str python value) = true := by
  rw [passes_iff, Check.run, to_match_regex]
  cases hcompile : python.compile pattern with
  | error message => exact iff_of_false (by rintro ⟨_, ⟨⟩, -⟩) (by rintro ⟨_, ⟨⟩, -⟩)
  | ok matches_start =>
    refine (exists_ok_iff.trans passed_column).trans ?_
    have hvalues : ∀ values : List (Value F),
        (values.countP fun v => !v.is_null && !matches_start (str python v)) = 0 ↔
          ∀ value ∈ values, value.is_null = true ∨ matches_start (str python value) = true := by
      intro values
      rw [List.countP_eq_zero]
      refine forall₂_congr fun value _ => ?_
      cases value.is_null <;> cases matches_start (str python value) <;> simp
    constructor
    · intro ⟨values, hlookup, hcount⟩
      exact ⟨matches_start, rfl, values, hlookup, (hvalues values).mp (ok_zero_iff.mp hcount)⟩
    · rintro ⟨_, ⟨⟩, values, hlookup, hall⟩
      exact ⟨values, hlookup, ok_zero_iff.mpr ((hvalues values).mpr hall)⟩

theorem passes_in_set {allowed_values : List (Value F)} :
    (Check.in_set column allowed_values).passes python table = true ↔
      (∀ v ∈ allowed_values, Hashable v) ∧
        ∃ values, table.columns.lookup column = some values ∧
          ∀ value ∈ values, ∃ v ∈ allowed_values, eq python value v = true := by
  rw [passes_iff, Check.run, to_be_in]
  by_cases hall : ∀ v ∈ allowed_values, Hashable v
  · have hset := @set_eq_ok _ python _ hall
    rw [hset, and_iff_right hall]
    refine (exists_ok_iff.trans passed_column).trans ?_
    refine exists_congr fun values => and_congr_right fun _ => ok_zero_iff.trans ?_
    rw [List.countP_eq_zero]
    refine forall₂_congr fun value _ => ?_
    rw [any_set hset, ← List.any_eq_true]
    cases allowed_values.any (eq python value) <;> simp
  · obtain ⟨e, he⟩ := set_eq_error python hall
    rw [he]
    exact iff_of_false (by rintro ⟨_, ⟨⟩, -⟩) fun h => hall h.1

theorem passes_row_count {min_count max_count : Option Int} :
    (Check.row_count min_count max_count).passes python table = true ↔
      (∀ m ∈ min_count, m ≤ table.columns.length) ∧
        ∀ m ∈ max_count, (table.columns.length : Int) ≤ m := by
  refine decide_eq_true_iff.trans ?_
  have hbounds : (min_count.getD 0 ≤ (table.columns.length : Int) ∧
      max_count.all (fun max_val => (table.columns.length : Int) ≤ max_val) = true) ↔
      (∀ m ∈ min_count, m ≤ table.columns.length) ∧
        ∀ m ∈ max_count, (table.columns.length : Int) ≤ m := by
    cases min_count <;> cases max_count <;> simp
  rw [← hbounds]
  unfold run_row_count
  dsimp only
  split
  · next h => exact iff_of_true rfl h
  · next h => exact iff_of_false (by rintro ⟨⟩) h

end passes

/-! ### When the worker passes a table -/

/-- The verdict of the worker on the rows of a table. -/
def Check.worker_passes [F64 F] (libraries : Libraries F) (table : Table F) (check : Check F) :
    Bool :=
  (CheckValidator.validate_check libraries (table.output libraries.hash)
    check.to_rust_check_type).any (·.passed)

/-- A bound as the worker reads it. It is a number, or there is none. -/
def bound [F64 F] : Value F → Option (Option F)
  | .null => some none
  | .number n => some (some n.as_f64)
  | _ => none

section json
variable [F64 F]

theorem as_option_json_value (value : Value F) :
    (json_value value).as_option Value.as_f64 = bound value := by
  cases value with
  | number n =>
    cases n with
    | int n =>
      rw [json_value, json_int]
      split <;> rfl
    | float x => rfl
  | _ => rfl

theorem json_items_eq_map (items : List (Value F)) : json_items items = items.map json_value := by
  induction items with
  | nil => rw [json_items, List.map_nil]
  | cons item items ih => rw [json_items, List.map_cons, ih]

/-- A count as the worker reads it. -/
theorem as_option_json_int (count : Option Int) :
    (Value.of_option json_int count : Value F).as_option Value.as_i64 =
      if ∀ n ∈ count, -2 ^ 63 ≤ n ∧ n < 2 ^ 63 then some count else none := by
  cases count with
  | none => rfl
  | some n =>
    have hread : (json_int n : Value F).as_option Value.as_i64 =
        if -2 ^ 63 ≤ n ∧ n < 2 ^ 63 then some (some n) else none := by
      unfold json_int
      by_cases hn : -2 ^ 63 ≤ n ∧ n < 2 ^ 64
      · rw [if_pos hn]
        show (if -2 ^ 63 ≤ n ∧ n < 2 ^ 63 then some n else none).map some = _
        split <;> rfl
      · rw [if_neg hn, if_neg (by omega)]
        rfl
    show (json_int n : Value F).as_option Value.as_i64 = _
    rw [hread]
    exact if_congr (by simp) rfl rfl

end json

section worker
variable [F64 F] {libraries : Libraries F} {table : Table F} {column : String}

/-- A validator of the values of a column, on the rows of a table. -/
theorem worker_column {ok : Value F → Prop} :
    (∃ values, (table.output libraries.hash).get_column column = some values ∧
        ∀ value ∈ values, ok value) ↔
      row_count table.columns ≠ 0 ∧ ∃ values, table.columns.lookup column = some values ∧
        ∀ value ∈ values, ok value := by
  simp only [Table.get_column_output_eq_some_iff, and_assoc, exists_and_left]

theorem worker_passes_not_null :
    (Check.not_null column).worker_passes libraries table = true ↔
      row_count table.columns ≠ 0 ∧ ∃ values, table.columns.lookup column = some values ∧
        ∀ value ∈ values, value.is_null = false := by
  have hrun : (Check.not_null column).worker_passes libraries table =
      (CheckValidator.validate_not_null libraries (table.output libraries.hash)
        [column]).passed := rfl
  rw [hrun, CheckValidator.passed_validate_not_null, ← worker_column]
  exact List.forall_mem_singleton

theorem worker_passes_unique :
    (Check.unique column).worker_passes libraries table = true ↔
      row_count table.columns = 0 ∨ ∃ values, table.columns.lookup column = some values ∧
        (values.map Value.to_text).Nodup := by
  have hrun : (Check.unique column).worker_passes libraries table =
      (CheckValidator.validate_unique libraries (table.output libraries.hash)
        [column]).any (·.passed) := rfl
  have hcount := @Table.row_count_output F _ table libraries.hash
  rw [hrun]
  by_cases hrows : row_count table.columns = 0
  · rw [CheckValidator.validate_unique_empty (hcount.trans hrows)]
    exact iff_of_true rfl (.inl hrows)
  · rw [or_iff_right hrows]
    have hcolumn := @Table.get_column_output F _ table column libraries.hash
    rw [if_neg hrows] at hcolumn
    cases hlookup : table.columns.lookup column with
    | none =>
      rw [CheckValidator.validate_unique_missing (hcolumn.trans hlookup) (by omega)]
      exact iff_of_false (by rintro ⟨⟩) (by rintro ⟨_, ⟨⟩, -⟩)
    | some values =>
      have hlength := (Table.length_of_lookup hlookup).trans hcount.symm
      obtain ⟨result, hresult, hpassed⟩ := @CheckValidator.passed_validate_unique
        F _ libraries _ _ _ (hcolumn.trans hlookup) hlength
      rw [hresult]
      refine hpassed.trans ⟨fun h => ⟨values, rfl, h⟩, ?_⟩
      rintro ⟨_, ⟨⟩, h⟩
      exact h

theorem worker_passes_between {min_value max_value : Value F} :
    (Check.between column min_value max_value).worker_passes libraries table = true ↔
      ∃ min max, bound min_value = some min ∧ bound max_value = some max ∧
        row_count table.columns ≠ 0 ∧ ∃ values, table.columns.lookup column = some values ∧
          ∀ value ∈ values, InRange min max value := by
  have hread : CheckValidator.CheckType.deserialize
      (Check.between column min_value max_value).to_rust_check_type =
        ((json_value min_value).as_option Value.as_f64).bind fun min =>
          ((json_value max_value).as_option Value.as_f64).bind fun max =>
            some (.InRange column min max) := rfl
  unfold Check.worker_passes CheckValidator.validate_check
  rw [hread, as_option_json_value, as_option_json_value]
  cases bound min_value with
  | none => exact iff_of_false (by rintro ⟨⟩) (by rintro ⟨_, _, ⟨⟩, -⟩)
  | some min =>
    cases bound max_value with
    | none => exact iff_of_false (by rintro ⟨⟩) (by rintro ⟨_, _, -, ⟨⟩, -⟩)
    | some max =>
      refine (CheckValidator.passed_validate_in_range.trans worker_column).trans ?_
      constructor
      · exact fun h => ⟨min, max, rfl, rfl, h⟩
      · rintro ⟨_, _, ⟨⟩, ⟨⟩, h⟩
        exact h

theorem worker_passes_matches {pattern : String} :
    (Check.matches column pattern).worker_passes libraries table = true ↔
      ∃ is_match, libraries.regex pattern = .ok is_match ∧
        row_count table.columns ≠ 0 ∧ ∃ values, table.columns.lookup column = some values ∧
          ∀ value ∈ values, Matches is_match value := by
  have hrun : (Check.matches column pattern).worker_passes libraries table =
      (CheckValidator.validate_regex libraries (table.output libraries.hash) column
        pattern).passed := rfl
  rw [hrun, CheckValidator.passed_validate_regex]
  exact exists_congr fun is_match => and_congr_right fun _ => worker_column

theorem worker_passes_in_set {allowed_values : List (Value F)} :
    (Check.in_set column allowed_values).worker_passes libraries table = true ↔
      row_count table.columns ≠ 0 ∧ ∃ values, table.columns.lookup column = some values ∧
        ∀ value ∈ values, Accepted (allowed_values.map json_value) value := by
  have hread : CheckValidator.CheckType.deserialize
      (Check.in_set column allowed_values).to_rust_check_type =
        ((Value.array (json_items allowed_values)).as_vec some).bind fun values =>
          some (.AcceptedValues column values) := rfl
  unfold Check.worker_passes CheckValidator.validate_check
  rw [hread, CheckWire.as_vec_values, json_items_eq_map]
  exact CheckValidator.passed_validate_accepted_values.trans worker_column

theorem worker_passes_row_count {min_count max_count : Option Int} :
    (Check.row_count min_count max_count).worker_passes libraries table = true ↔
      ((∀ n ∈ min_count, -2 ^ 63 ≤ n ∧ n < 2 ^ 63) ∧ ∀ n ∈ max_count, -2 ^ 63 ≤ n ∧ n < 2 ^ 63) ∧
        (∀ m ∈ min_count, m ≤ row_count table.columns) ∧
          ∀ m ∈ max_count, (row_count table.columns : Int) ≤ m := by
  have hread : CheckValidator.CheckType.deserialize
      (Check.row_count min_count max_count : Check F).to_rust_check_type =
        ((Value.of_option json_int min_count : Value F).as_option Value.as_i64).bind fun min =>
          ((Value.of_option json_int max_count : Value F).as_option Value.as_i64).bind fun max =>
            some (.RowCount min max) := rfl
  unfold Check.worker_passes CheckValidator.validate_check
  rw [hread, as_option_json_int, as_option_json_int]
  by_cases hmin : ∀ n ∈ min_count, -2 ^ 63 ≤ n ∧ n < 2 ^ 63
  · by_cases hmax : ∀ n ∈ max_count, -2 ^ 63 ≤ n ∧ n < 2 ^ 63
    · rw [if_pos hmin, if_pos hmax]
      refine CheckValidator.passed_validate_row_count.trans ?_
      rw [Table.row_count_output]
      exact (and_iff_right ⟨hmin, hmax⟩).symm
    · rw [if_pos hmin, if_neg hmax]
      exact iff_of_false (by rintro ⟨⟩) fun h => hmax h.1.2
  · rw [if_neg hmin]
    exact iff_of_false (by rintro ⟨⟩) fun h => hmin h.1.1

end worker

end Servo.Python
