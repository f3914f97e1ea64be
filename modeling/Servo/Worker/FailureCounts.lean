import Mathlib.Algebra.Order.Field.Rat
import Mathlib.Algebra.Order.GroupWithZero.Basic
import Mathlib.Tactic.Linarith
import Servo.Worker.ReferenceColumns

/-! # Failures and Rows

    A validator reports how many failures it has counted and how many rows
    there are. Most count a failure for a row. `not_null` counts one for each
    null value, of which a row may have several, and `schema_match` one for
    each kind of difference, whether there are rows or not. And a column that
    is longer than the others may have failures in no row.
-/

namespace Servo.CheckValidator

open Python (exact_libraries)
open Repeats (repeats)

variable {F : Type}

/-! ### Rows that fail -/

/-- The rows of the values that fail. -/
def failing_rows (fails : Nat → Value F → Bool) (values : List (Value F)) : List Nat :=
  (values.zipIdx.filter fun entry => fails entry.2 entry.1).map Prod.snd

theorem nodup_failing_rows (fails : Nat → Value F → Bool) (values : List (Value F)) :
    (failing_rows fails values).Nodup := by
  have hsub : (failing_rows fails values).Sublist (values.zipIdx.map Prod.snd) :=
    List.filter_sublist.map Prod.snd
  rw [List.zipIdx_map_snd] at hsub
  exact hsub.nodup List.nodup_range'

theorem count_failing_rows (fails : Nat → Value F → Option (Value F)) (values : List (Value F)) :
    (failing_values fails values).count =
      (failing_rows (fun idx value => (fails idx value).isSome) values).length := by
  have hcount := count_foldl_failures (fun entry => fails entry.2 entry.1) values.zipIdx .none
  rw [failing_rows, List.length_map]
  exact hcount.trans (Nat.zero_add _)

/-- The null values of a column, by their rows. -/
def null_rows (data : AssetOutput F) (name : String) : List Nat :=
  failing_rows (fun _ value => value.is_null) ((data.get_column name).getD [])

theorem count_null_rows {name : String} {values : List (Value F)} {data : AssetOutput F}
    (hcolumn : data.get_column name = some values) (failures : Failures F) :
    (null_values name values failures).count = failures.count + (null_rows data name).length := by
  rw [null_values_eq_foldl, count_foldl_failures, null_rows, hcolumn, Option.getD_some,
    failing_rows, List.length_map]
  refine congrArg _ (congrArg List.length (List.filter_congr fun entry _ => ?_))
  cases hnull : entry.1.is_null <;> simp [null_fails, hnull]

/-- The null values of all columns, one column after the other. -/
theorem count_add_columns {data : AssetOutput F} {columns : List String}
    (hexist : ∀ name ∈ columns, data.has_column name = true) (failures : Failures F) :
    ∃ found, columns.foldlM (add_column data) failures = .ok found ∧
      found.count = failures.count + (columns.flatMap (null_rows data)).length := by
  induction columns generalizing failures with
  | nil => exact ⟨failures, rfl, rfl⟩
  | cons name columns ih =>
    rw [List.forall_mem_cons] at hexist
    obtain ⟨values, hcolumn⟩ := Option.isSome_iff_exists.mp hexist.1
    obtain ⟨found, hfound, hcount⟩ := ih hexist.2 (null_values name values failures)
    refine ⟨found, ?_, ?_⟩
    · rw [List.foldlM_cons, add_column, hcolumn]
      exact hfound
    · rw [hcount, count_null_rows hcolumn, List.flatMap_cons, List.length_append]
      omega

/-- As many as there are rows among them: each is a row, and none stands there twice. -/
theorem length_eq_length_filter_iff {failing : List Nat} {row_count : Nat} :
    failing.length = ((List.range row_count).filter (· ∈ failing)).length ↔
      failing.Nodup ∧ ∀ row ∈ failing, row < row_count := by
  have hnodup : ((List.range row_count).filter (· ∈ failing)).Nodup := List.nodup_range.filter _
  constructor
  · intro hlength
    have hsub : ((List.range row_count).filter (· ∈ failing)).Subperm failing := by
      apply hnodup.subperm
      intro row hrow
      simpa using (List.mem_filter.mp hrow).2
    have hperm := hsub.perm_of_length_le hlength.le
    refine ⟨hperm.nodup_iff.mp hnodup, fun row hrow => ?_⟩
    exact List.mem_range.mp (List.mem_filter.mp (hperm.mem_iff.mpr hrow)).1
  · intro ⟨hfailing, hrows⟩
    apply List.Perm.length_eq
    rw [List.perm_ext_iff_of_nodup hfailing hnodup]
    intro row
    rw [List.mem_filter, List.mem_range, decide_eq_true_eq]
    constructor
    · intro hrow
      exact ⟨hrows row hrow, hrow⟩
    · intro hand
      exact hand.2

/-! ### What is reported -/

/-- `failure_rate`, as a percentage. The quotient is exact. -/
def failure_rate (failed_row_count total_row_count : Option Int) : Option Rat :=
  match failed_row_count, total_row_count with
  | some failed, some total => if 0 < total then some ((failed : Rat) / total * 100) else none
  | _, _ => none

theorem failure_rate_bounds {failed total : Int} (hfailed : 0 ≤ failed) (hle : failed ≤ total)
    {rate : Rat} (h : failure_rate (some failed) (some total) = some rate) :
    0 ≤ rate ∧ rate ≤ 100 := by
  rw [failure_rate] at h
  by_cases hpos : 0 < total
  · rw [if_pos hpos, Option.some.injEq] at h
    subst h
    have hfailed' : (0 : Rat) ≤ failed := by exact_mod_cast hfailed
    have hle' : (failed : Rat) ≤ total := by exact_mod_cast hle
    have hpos' : (0 : Rat) < total := by exact_mod_cast hpos
    have hquot : 0 ≤ (failed : Rat) / total := div_nonneg hfailed' hpos'.le
    have hquot' : (failed : Rat) / total ≤ 1 := div_le_one_of_le₀ hle' hpos'.le
    constructor
    · linarith
    · linarith
  · rw [if_neg hpos] at h
    cases h

/-- The rows of the values of a column that a validator counts. -/
def rows_counted (data : AssetOutput F) (column : String)
    (fails : Nat → Value F → Option (Value F)) : List Nat :=
  failing_rows (fun idx value => (fails idx value).isSome) ((data.get_column column).getD [])

section checks
variable [F64 F] (libraries : Libraries F) (data : AssetOutput F)

/-- The values that a check of one column counts, by their rows. -/
def column_failures : CheckType F → List Nat
  | .InRange column min max => rows_counted data column (out_of_range column min max)
  | .Regex column pattern =>
    match libraries.regex pattern with
    | .ok is_match => rows_counted data column (non_matching is_match column pattern)
    | .error _ => []
  | .AcceptedValues column accepted => rows_counted data column (not_accepted column accepted)
  | .ReferentialIntegrity column reference_table reference_column =>
    match data.get_column (ref_col_key reference_table reference_column) with
    | some vals => rows_counted data column (orphan column reference_table reference_column
        ((vals.filter fun v => !v.is_null).map Value.to_text))
    | none => []
  | _ => []

/-- The row has the values of an earlier one in some columns. -/
def repeats_row (columns : List String) (row : Nat) : Bool :=
  (List.range row).any fun earlier => tuple data columns earlier = tuple data columns row

/-- The row violates the check: it has a value that fails, or it repeats an earlier row. -/
def violates (check_type : CheckType F) (row : Nat) : Bool :=
  match check_type with
  | .NotNull columns => row ∈ columns.flatMap (null_rows data)
  | .Unique columns => repeats_row data columns row
  | .NoDuplicateRows columns =>
    let col_names := columns.getD (data.columns.map Prod.fst)
    col_names ≠ [] && repeats_row data (col_names.filter data.has_column) row
  | check_type => row ∈ column_failures libraries data check_type

/-- The checks of rows. -/
def row_level : CheckType F → Bool
  | .RowCount _ _ | .Freshness _ _ | .SchemaMatch _ _ | .Custom _ _ => false
  | _ => true

/-- The number of rows that violate the check. -/
def violating_rows (check_type : CheckType F) : Nat :=
  ((List.range data.row_count).filter (violates libraries data check_type)).length

/-- What is reported of a check: failures are rows. -/
structure ReportsRows (check_type : Option (CheckType F)) (result : ValidationResult F)
    (failed total : Int) : Prop where
  nonneg : 0 ≤ failed
  le_total : failed ≤ total
  rate : ∀ rate, failure_rate result.failed_count result.total_count = some rate →
    0 ≤ rate ∧ rate ≤ 100
  rows : ∀ parsed, check_type = some parsed → row_level parsed = true →
    failed = violating_rows libraries data parsed ∧ (result.passed = true ↔ failed = 0)

/-- The number of kinds of differences that `schema_match` looks for. -/
def schema_differences (expected_columns : List String) (allow_extra_columns : Bool) : Nat :=
  (if ∀ name ∈ expected_columns, data.has_column name = true then 0 else 1) +
    if allow_extra_columns = true ∨ ∀ name ∈ data.columns.map Prod.fst, name ∈ expected_columns
    then 0 else 1

/-- The failures that the check counts are different rows. -/
def FailuresAreRows : CheckType F → Prop
  | .NotNull columns => (∃ name ∈ columns, data.has_column name = false) ∨
    ((columns.flatMap (null_rows data)).Nodup ∧
      ∀ row ∈ columns.flatMap (null_rows data), row < data.row_count)
  | .SchemaMatch expected_columns allow_extra_columns =>
    schema_differences data expected_columns allow_extra_columns ≤ data.row_count
  | check_type => ∀ row ∈ column_failures libraries data check_type, row < data.row_count

end checks

/-! ### One kind after the other -/

section kinds
variable [F64 F] {libraries : Libraries F} {data : AssetOutput F} {parsed : CheckType F}

/-- All results of a check. -/
def ReportsRowsOf (libraries : Libraries F) (data : AssetOutput F) (parsed : CheckType F) : Prop :=
  ∀ result failed total, execute_check libraries data parsed = some result →
    result.failed_count = some failed → result.total_count = some total →
      ReportsRows libraries data (some parsed) result failed total

theorem violating_rows_le : violating_rows libraries data parsed ≤ data.row_count := by
  have h := List.length_filter_le (violates libraries data parsed) (List.range data.row_count)
  rwa [List.length_range] at h

/-- A result without counts. -/
theorem reports_rows_of_error {result : ValidationResult F}
    (hexec : execute_check libraries data parsed = some result)
    (hfailed : result.failed_count = none) : ReportsRowsOf libraries data parsed := by
  intro result' failed total hresult hcount
  rw [hexec] at hresult
  cases hresult
  rw [hfailed] at hcount
  cases hcount

/-- A result with counts. -/
theorem reports_rows_iff {result : ValidationResult F} {count : Nat}
    (hexec : execute_check libraries data parsed = some result)
    (hfailed : result.failed_count = some (count : Int))
    (htotal : result.total_count = some (data.row_count : Int))
    (hpassed : result.passed = true ↔ count = 0) :
    ReportsRowsOf libraries data parsed ↔ count ≤ data.row_count ∧
      (row_level parsed = true → count = violating_rows libraries data parsed) := by
  constructor
  · intro h
    have hrows := h result count data.row_count hexec hfailed htotal
    refine ⟨by exact_mod_cast hrows.le_total, fun hlevel => ?_⟩
    exact_mod_cast (hrows.rows parsed rfl hlevel).1
  · intro ⟨hle, hlevel⟩ result' failed total hresult hfailed' htotal'
    rw [hexec] at hresult
    cases hresult
    rw [hfailed] at hfailed'
    rw [htotal] at htotal'
    cases hfailed'
    cases htotal'
    have hle' : (count : Int) ≤ data.row_count := by exact_mod_cast hle
    have hnonneg : (0 : Int) ≤ count := Int.natCast_nonneg count
    refine ⟨hnonneg, hle', fun rate hrate => ?_, fun parsed' hparsed hlevel' => ?_⟩
    · rw [hfailed, htotal] at hrate
      exact failure_rate_bounds hnonneg hle' hrate
    · cases hparsed
      refine ⟨by exact_mod_cast hlevel hlevel', ?_⟩
      rw [hpassed]
      exact_mod_cast Iff.rfl

/-- A row-level check with the failures it has found. -/
theorem reports_rows_result_iff {failures : Failures F} {message : String}
    (hexec : execute_check libraries data parsed =
      some (failures.result data.row_count message)) (hlevel : row_level parsed = true) :
    ReportsRowsOf libraries data parsed ↔
      failures.count = violating_rows libraries data parsed := by
  rw [reports_rows_iff hexec (Failures.failed_count_result _ _ _)
    (Failures.total_count_result _ _ _) Failures.passed_result]
  constructor
  · intro hand
    exact hand.2 hlevel
  · intro hcount
    exact ⟨hcount ▸ violating_rows_le, fun _ => hcount⟩

theorem length_violating_eq_iff {failing : List Nat}
    (hviolates : ∀ row, violates libraries data parsed row = decide (row ∈ failing)) :
    failing.length = violating_rows libraries data parsed ↔
      failing.Nodup ∧ ∀ row ∈ failing, row < data.row_count := by
  have hfilter : (List.range data.row_count).filter (violates libraries data parsed) =
      (List.range data.row_count).filter (· ∈ failing) :=
    List.filter_congr fun row _ => hviolates row
  rw [violating_rows, hfilter]
  exact length_eq_length_filter_iff

theorem not_null_reports_iff (columns : List String) :
    ReportsRowsOf libraries data (.NotNull columns) ↔
      FailuresAreRows libraries data (.NotNull columns) := by
  cases hmissing : first_missing_column data columns with
  | some name =>
    obtain ⟨before, after, rfl, -, hnone⟩ := split_at_missing hmissing
    refine iff_of_true (reports_rows_of_error
      (congrArg some (validate_not_null_missing hmissing)) rfl) (.inl ⟨name, by simp, ?_⟩)
    rw [AssetOutput.has_column, hnone]
    rfl
  | none =>
    have hexist := all_exist hmissing
    obtain ⟨found, hfound, hcount⟩ := count_add_columns hexist .none
    have hexec : execute_check libraries data (.NotNull columns) =
        some (found.result data.row_count (toString found.count ++
          " null values found in columns " ++ debug_list (columns.map libraries.debug))) :=
      congrArg some (validate_not_null_of_ok hfound)
    rw [Failures.count_none, Nat.zero_add] at hcount
    rw [reports_rows_result_iff hexec rfl, hcount, length_violating_eq_iff fun row => rfl,
      FailuresAreRows, or_iff_right]
    intro hmissing_name
    obtain ⟨name, hname, hnone⟩ := hmissing_name
    rw [hexist name hname] at hnone
    cases hnone

/-- A check of one column. -/
theorem column_reports_iff {column : String} {fails : Nat → Value F → Option (Value F)}
    {message : Nat → String}
    (hexec : execute_check libraries data parsed =
      some (validate_column data column fails message)) (hlevel : row_level parsed = true)
    (hviolates : ∀ row, violates libraries data parsed row =
      decide (row ∈ rows_counted data column fails)) :
    ReportsRowsOf libraries data parsed ↔
      ∀ row ∈ rows_counted data column fails, row < data.row_count := by
  cases hcolumn : data.get_column column with
  | none =>
    rw [validate_column, hcolumn] at hexec
    refine iff_of_true (reports_rows_of_error hexec rfl) ?_
    simp [rows_counted, hcolumn, failing_rows]
  | some values =>
    rw [validate_column, hcolumn] at hexec
    have hcount : (failing_values fails values).count =
        (rows_counted data column fails).length := by
      rw [rows_counted, hcolumn, Option.getD_some, count_failing_rows]
    rw [reports_rows_result_iff hexec hlevel, hcount, length_violating_eq_iff hviolates]
    exact and_iff_right (nodup_failing_rows _ _)

/-- The rows that repeat an earlier one are as many as the pass finds. -/
theorem length_repeats_eq (columns : List String) :
    (repeats (tuple data columns) [] (List.range data.row_count)).length =
      ((List.range data.row_count).filter (repeats_row data columns)).length := by
  apply List.Perm.length_eq
  rw [List.perm_ext_iff_of_nodup ((Repeats.repeats_sublist_self [] _).nodup List.nodup_range)
    (List.nodup_range.filter _)]
  intro row
  simp only [Repeats.mem_repeats_range, List.mem_filter, List.mem_range, repeats_row,
    List.any_eq_true, decide_eq_true_eq]

theorem unique_reports (hnumbers : NumberTexts F) (columns : List String) :
    ReportsRowsOf libraries data (.Unique columns) := by
  by_cases hne : columns = []
  · subst hne
    exact reports_rows_of_error rfl rfl
  intro result failed total hresult hfailed htotal
  have hcounted := full_of_validate_unique hne hresult
  rw [hfailed] at hcounted
  rcases hcounted.resolve_left (Option.some_ne_none _) with hrows | hfull
  · -- without rows there is nothing to count
    have hexec : execute_check libraries data (.Unique columns) =
        some ((Failures.none : Failures F).result data.row_count "") := by
      rw [hrows]
      exact validate_unique_no_rows hne hrows
    refine (reports_rows_result_iff hexec rfl).mpr ?_ result failed total hresult hfailed htotal
    rw [violating_rows, hrows]
    rfl
  · have hexec : execute_check libraries data (.Unique columns) = _ :=
      validate_unique_full hne hfull
    refine (reports_rows_result_iff hexec rfl).mpr ?_ result failed total hresult hfailed htotal
    rw [count_duplicate_keys hnumbers hne, length_repeats_eq]
    rfl

theorem no_duplicate_rows_reports (hnumbers : NumberTexts F) (columns : Option (List String)) :
    ReportsRowsOf libraries data (.NoDuplicateRows columns) := by
  by_cases hne : columns.getD (data.columns.map Prod.fst) = []
  · have hexec : execute_check libraries data (.NoDuplicateRows columns) =
        some ((Failures.none : Failures F).result data.row_count "") := by
      rw [execute_check, validate_no_duplicate_rows, if_pos hne]
      rfl
    apply (reports_rows_result_iff hexec rfl).mpr
    have hviolates : (List.range data.row_count).filter
        (violates libraries data (.NoDuplicateRows columns)) = [] := by
      apply List.filter_eq_nil_iff.mpr
      intro row _
      simp [violates, hne]
    rw [violating_rows, hviolates]
    rfl
  · intro result failed total hresult hfailed htotal
    have hsome : execute_check libraries data (.NoDuplicateRows columns) =
        validate_no_duplicate_rows data (some (columns.getD (data.columns.map Prod.fst))) := rfl
    rw [hsome] at hresult
    have hfull : ∀ name ∈ columns.getD (data.columns.map Prod.fst),
        data.has_column name = true → Full data name := by
      rcases (of_validate_no_duplicate_rows hne hresult).2 with hrows | hfull
      · intro name _ hcolumn
        obtain ⟨values, hvalues⟩ := Option.isSome_iff_exists.mp hcolumn
        exact ⟨values, hvalues, by omega⟩
      · exact hfull
    refine (reports_rows_result_iff (hsome.trans (validate_no_duplicate_rows_full hne hfull))
      rfl).mpr ?_ result failed total hresult hfailed htotal
    have hviolates : (List.range data.row_count).filter
        (violates libraries data (.NoDuplicateRows columns)) =
          (List.range data.row_count).filter (repeats_row data
            ((columns.getD (data.columns.map Prod.fst)).filter data.has_column)) := by
      refine List.filter_congr fun row _ => ?_
      simp [violates, hne]
    rw [count_duplicate_rows hnumbers, length_repeats_eq, violating_rows, hviolates]

section schema
variable (errors : List String) (total : Nat)

omit [F64 F] in
theorem failed_count_schema_result :
    (schema_result errors total : ValidationResult F).failed_count =
      some (errors.length : Int) := by
  unfold schema_result
  split
  · next h =>
    rw [h]
    rfl
  · rfl

omit [F64 F] in
theorem total_count_schema_result :
    (schema_result errors total : ValidationResult F).total_count = some (total : Int) := by
  unfold schema_result
  split
  · rfl
  · rfl

omit [F64 F] in
theorem passed_schema_result :
    (schema_result errors total : ValidationResult F).passed = true ↔ errors.length = 0 := by
  unfold schema_result
  split
  · next h => exact iff_of_true rfl (List.length_eq_zero_iff.mpr h)
  · next h => exact iff_of_false (by rintro ⟨⟩) (mt List.length_eq_zero_iff.mp h)

end schema

theorem schema_reports_iff (expected_columns : List String) (allow_extra_columns : Bool) :
    ReportsRowsOf libraries data (.SchemaMatch expected_columns allow_extra_columns) ↔
      FailuresAreRows libraries data (.SchemaMatch expected_columns allow_extra_columns) := by
  have hmissing : (libraries.hash.order expected_columns.dedup).filter
      (· ∉ libraries.hash.order (data.columns.map Prod.fst)) = [] ↔
        ∀ name ∈ expected_columns, data.has_column name = true := by
    simp [List.filter_eq_nil_iff, mem_order_names, mem_order_expected]
  have hextra : (libraries.hash.order (data.columns.map Prod.fst)).filter
      (· ∉ libraries.hash.order expected_columns.dedup) = [] ↔
        ∀ name ∈ data.columns.map Prod.fst, name ∈ expected_columns := by
    rw [List.filter_eq_nil_iff]
    constructor
    · intro hall name hname
      have h := hall name ((libraries.hash.perm _).mem_iff.mpr hname)
      rw [decide_eq_true_eq, not_not] at h
      exact mem_order_expected.mp h
    · intro hall name hname
      have h := hall name ((libraries.hash.perm _).mem_iff.mp hname)
      rw [decide_eq_true_eq, not_not]
      exact mem_order_expected.mpr h
  have hexec : execute_check libraries data (.SchemaMatch expected_columns allow_extra_columns) =
      some (schema_result _ data.row_count) :=
    congrArg some (validate_schema_match_eq expected_columns allow_extra_columns)
  have hlength : ∀ (missing extra : List String), (missing = [] ↔ ∀ name ∈ expected_columns,
      data.has_column name = true) → (extra = [] ↔ ∀ name ∈ data.columns.map Prod.fst,
        name ∈ expected_columns) →
      (schema_errors libraries.debug missing extra allow_extra_columns).length =
        schema_differences data expected_columns allow_extra_columns := by
    intro missing extra hmissing hextra
    rw [schema_errors, schema_differences, List.length_append]
    congr 1
    · by_cases hnil : missing = []
      · rw [if_pos hnil, if_pos (hmissing.mp hnil)]
        rfl
      · rw [if_neg hnil, if_neg (mt hmissing.mpr hnil)]
        rfl
    · by_cases hnil : allow_extra_columns = true ∨ extra = []
      · rw [if_pos (by simpa using hnil), if_pos (hnil.imp_right hextra.mp)]
        rfl
      · rw [if_neg (by simpa using hnil), if_neg (mt (Or.imp_right hextra.mpr) hnil)]
        rfl
  rw [FailuresAreRows, ← hlength _ _ hmissing hextra]
  rw [reports_rows_iff hexec (failed_count_schema_result _ _) (total_count_schema_result _ _)
    (passed_schema_result _ _)]
  constructor
  · intro hand
    exact hand.1
  · intro hle
    exact ⟨hle, fun hlevel => by cases hlevel⟩

theorem row_count_reports (min max : Option Int) :
    ReportsRowsOf libraries data (.RowCount min max) := by
  obtain ⟨result, hexec, hfailed, htotal⟩ : ∃ result : ValidationResult F,
      execute_check libraries data (.RowCount min max) = some result ∧
        result.failed_count = some 0 ∧ result.total_count = some (data.row_count : Int) := by
    refine ⟨_, rfl, ?_, ?_⟩
    · unfold validate_row_count
      dsimp only
      split
      · rfl
      · split <;> rfl
    · unfold validate_row_count
      dsimp only
      split
      · rfl
      · split <;> rfl
  intro result' failed total hresult hfailed' htotal'
  rw [hexec] at hresult
  cases hresult
  rw [hfailed] at hfailed'
  rw [htotal] at htotal'
  cases hfailed'
  cases htotal'
  have hle : (0 : Int) ≤ data.row_count := Int.natCast_nonneg _
  refine ⟨le_rfl, hle, fun rate hrate => ?_, fun parsed hparsed hlevel => ?_⟩
  · rw [hfailed, htotal] at hrate
    exact failure_rate_bounds le_rfl hle hrate
  · cases hparsed
    cases hlevel

theorem references_report_iff (column reference_table reference_column : String) :
    ReportsRowsOf libraries data
        (.ReferentialIntegrity column reference_table reference_column) ↔
      ∀ row ∈ column_failures libraries data
        (.ReferentialIntegrity column reference_table reference_column), row < data.row_count := by
  cases hvals : data.get_column (ref_col_key reference_table reference_column) with
  | none =>
    have hfailures : column_failures libraries data
        (.ReferentialIntegrity column reference_table reference_column) = [] := by
      rw [column_failures, hvals]
    refine iff_of_true ?_ (by simp [hfailures])
    cases hcolumn : data.get_column column with
    | none =>
      have hexec : execute_check libraries data
          (.ReferentialIntegrity column reference_table reference_column) =
            some (.column_not_found column) := by
        rw [execute_check, validate_referential_integrity, hcolumn]
      exact reports_rows_of_error hexec rfl
    | some values =>
      -- a pass with a note: no row is known to violate the check
      have hexec : ∃ result : ValidationResult F, execute_check libraries data
          (.ReferentialIntegrity column reference_table reference_column) = some result ∧
            result.failed_count = some ((0 : Nat) : Int) ∧
            result.total_count = some (data.row_count : Int) ∧ result.passed = true := by
        refine ⟨_, rfl, ?_⟩
        rw [validate_referential_integrity, hcolumn, hvals]
        exact ⟨rfl, rfl, rfl⟩
      obtain ⟨result, hexec, hfailed, htotal, hpassed⟩ := hexec
      apply (reports_rows_iff hexec hfailed htotal (iff_of_true hpassed rfl)).mpr
      refine ⟨Nat.zero_le _, fun _ => ?_⟩
      have hviolates : (List.range data.row_count).filter (violates libraries data
          (.ReferentialIntegrity column reference_table reference_column)) = [] := by
        apply List.filter_eq_nil_iff.mpr
        intro row _
        show ¬ decide (row ∈ column_failures libraries data
          (.ReferentialIntegrity column reference_table reference_column)) = true
        rw [hfailures]
        simp
      rw [violating_rows, hviolates]
      rfl
  | some vals =>
    have hfailures : column_failures libraries data
        (.ReferentialIntegrity column reference_table reference_column) =
          rows_counted data column (orphan column reference_table reference_column
            ((vals.filter fun v => !v.is_null).map Value.to_text)) := by
      rw [column_failures, hvals]
    have hexec : execute_check libraries data
        (.ReferentialIntegrity column reference_table reference_column) =
          some (validate_column data column (orphan column reference_table reference_column
            ((vals.filter fun v => !v.is_null).map Value.to_text)) fun count =>
              toString count ++ " values in column '" ++ column ++
                "' have no matching reference in '" ++ reference_table ++ "." ++
                reference_column ++ "'") := by
      rw [execute_check, validate_referential_integrity, hvals]
      cases hcolumn : data.get_column column with
      | none => simp only [validate_column, hcolumn]
      | some values => rfl
    rw [hfailures]
    apply column_reports_iff hexec rfl
    intro row
    show decide (row ∈ column_failures libraries data
      (.ReferentialIntegrity column reference_table reference_column)) = _
    rw [hfailures]

theorem reports_rows_of_iff (hnumbers : NumberTexts F) (parsed : CheckType F) :
    ReportsRowsOf libraries data parsed ↔ FailuresAreRows libraries data parsed := by
  cases parsed with
  | NotNull columns => exact not_null_reports_iff columns
  | Unique columns => exact iff_of_true (unique_reports hnumbers columns) (by
      simp [FailuresAreRows, column_failures])
  | InRange column min max => exact column_reports_iff rfl rfl fun row => rfl
  | Regex column pattern =>
    cases hregex : libraries.regex pattern with
    | error e =>
      have hexec : execute_check libraries data (.Regex column pattern) =
          some (.error ("Invalid regex pattern '" ++ pattern ++ "': " ++ e)) := by
        rw [execute_check, validate_regex, hregex]
      exact iff_of_true (reports_rows_of_error hexec rfl) (by
        simp [FailuresAreRows, column_failures, hregex])
    | ok is_match =>
      have hexec : execute_check libraries data (.Regex column pattern) =
          some (validate_column data column (non_matching is_match column pattern) fun count =>
            toString count ++ " values in column '" ++ column ++ "' do not match pattern '" ++
              pattern ++ "'") := by
        rw [execute_check, validate_regex, hregex]
      have hfailures : column_failures libraries data (.Regex column pattern) =
          rows_counted data column (non_matching is_match column pattern) := by
        rw [column_failures, hregex]
      show _ ↔ ∀ row ∈ column_failures libraries data (.Regex column pattern), _
      rw [hfailures]
      apply column_reports_iff hexec rfl
      intro row
      show decide (row ∈ column_failures libraries data (.Regex column pattern)) = _
      rw [hfailures]
  | RowCount min max => exact iff_of_true (row_count_reports min max) (by
      simp [FailuresAreRows, column_failures])
  | AcceptedValues column accepted => exact column_reports_iff rfl rfl fun row => rfl
  | NoDuplicateRows columns =>
    exact iff_of_true (no_duplicate_rows_reports hnumbers columns) (by
      simp [FailuresAreRows, column_failures])
  | Freshness timestamp_column max_age_seconds =>
    exact iff_of_true (reports_rows_of_error rfl rfl) (by simp [FailuresAreRows, column_failures])
  | ReferentialIntegrity column reference_table reference_column =>
    exact references_report_iff column reference_table reference_column
  | SchemaMatch expected_columns allow_extra_columns =>
    exact schema_reports_iff expected_columns allow_extra_columns
  | Custom name description =>
    exact iff_of_true (reports_rows_of_error rfl rfl) (by simp [FailuresAreRows, column_failures])

end kinds

/-- Two rows, of which one has no name. -/
def unnamed : AssetOutput Int :=
  .from_rows exact_libraries.hash [.object [("id", .number (.int 1)), ("name", .null)],
    .object [("id", .number (.int 2)), ("name", .string "Bob")]]

end Servo.CheckValidator
