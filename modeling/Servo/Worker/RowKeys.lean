import Servo.Core.JsonSeparators
import Servo.Framework.Repeats
import Servo.Worker.ValidatorVerdicts

/-! # The Keys of Rows

    What the two validators find that go through the rows and keep the keys
    they have seen. They find the rows with the key of an earlier row, unless
    the key of some row cannot be made: a column is missing, or it has no
    value for the row.
-/

namespace Servo.CheckValidator

open Repeats (repeats length_repeats)

variable {F : Type}

/-- The column exists and has a value for each row. -/
def Full (data : AssetOutput F) (name : String) : Prop :=
  ∃ values, data.get_column name = some values ∧ data.row_count ≤ values.length

/-- The value of a row in a column. -/
def value_at (data : AssetOutput F) (row_idx : Nat) (name : String) : Value F :=
  ((data.get_column name).getD []).getD row_idx .null

/-- The texts of the values of a row in some columns. -/
def tuple [F64 F] (data : AssetOutput F) (columns : List String) (row_idx : Nat) : List Json :=
  columns.map fun name => (value_at data row_idx name).to_text

namespace Failures

/-- Failures that are found one after the other. -/
def found {α : Type} (sample : α → Value F) (failing : List α) : Failures F :=
  failing.foldl (fun failures x => failures.add (sample x)) none

theorem count_foldl_add {α : Type} (sample : α → Value F) (failing : List α)
    (failures : Failures F) :
    (failing.foldl (fun failures x => failures.add (sample x)) failures).count =
      failures.count + failing.length := by
  induction failing generalizing failures with
  | nil => rfl
  | cons x failing ih =>
    rw [List.foldl_cons, ih, count_add, List.length_cons]
    omega

@[simp] theorem count_found {α : Type} (sample : α → Value F) (failing : List α) :
    (found sample failing).count = failing.length := by
  rw [found, count_foldl_add, count_none, Nat.zero_add]

theorem failed_count_result (failures : Failures F) (total : Nat) (message : String) :
    (failures.result total message).failed_count = some (failures.count : Int) := by
  unfold result
  split
  · next h =>
    rw [h]
    rfl
  · rfl

theorem total_count_result (failures : Failures F) (total : Nat) (message : String) :
    (failures.result total message).total_count = some (total : Int) := by
  unfold result
  split
  · rfl
  · rfl

end Failures

/-! ### The pass over the rows -/

section pass
variable {key : Nat → RowM F String} {sample : Nat → String → Value F}

/-- Rows that have a key. -/
theorem look_at_rows {k : Nat → String} {rows : List Nat}
    (hkey : ∀ row ∈ rows, key row = pure (k row)) (seen : List String) (failures : Failures F) :
    ∃ seen', rows.foldlM (look_at_row key sample) (seen, failures) =
      (pure (seen', (repeats k seen rows).foldl
        (fun failures row => failures.add (sample row (k row))) failures) : RowM F _) := by
  induction rows generalizing seen failures with
  | nil => exact ⟨seen, rfl⟩
  | cons row rows ih =>
    rw [List.forall_mem_cons] at hkey
    unfold repeats
    by_cases hseen : k row ∈ seen
    · obtain ⟨seen', hfold⟩ := ih hkey.2 seen (failures.add (sample row (k row)))
      refine ⟨seen', ?_⟩
      rw [List.foldlM_cons, look_at_row, hkey.1, pure_bind, if_pos hseen, pure_bind, hfold,
        if_pos hseen, List.foldl_cons]
    · obtain ⟨seen', hfold⟩ := ih hkey.2 (k row :: seen) failures
      refine ⟨seen', ?_⟩
      rw [List.foldlM_cons, look_at_row, hkey.1, pure_bind, if_neg hseen, pure_bind, hfold,
        if_neg hseen]

/-- If all rows have a key, then the rows are found whose key is repeated. -/
theorem repeated_rows_eq {k : Nat → String} {row_count : Nat}
    (hkey : ∀ row < row_count, key row = pure (k row)) :
    repeated_rows key sample row_count = (pure (Failures.found (fun row => sample row (k row))
      (repeats k [] (List.range row_count))) : RowM F _) := by
  have hkey' : ∀ row ∈ List.range row_count, key row = pure (k row) := fun row hrow =>
    hkey row (List.mem_range.mp hrow)
  obtain ⟨seen', hfold⟩ := look_at_rows hkey' [] (.none : Failures F)
  rw [repeated_rows, hfold, pure_bind]
  rfl

/-- If the pass comes to its end, then all rows have a key. -/
theorem key_of_look_at_rows {rows : List Nat} {found found' : List String × Failures F}
    (h : rows.foldlM (look_at_row key sample) found = (pure found' : RowM F _)) :
    ∀ row ∈ rows, ∃ row_key, key row = pure row_key := by
  induction rows generalizing found with
  | nil => simp
  | cons row rows ih =>
    rw [List.foldlM_cons] at h
    cases hkey : key row with
    | none =>
      rw [look_at_row, hkey] at h
      cases h
    | some result =>
      cases result with
      | error e =>
        rw [look_at_row, hkey] at h
        cases h
      | ok row_key =>
        rw [List.forall_mem_cons]
        refine ⟨⟨row_key, hkey⟩, ?_⟩
        have hpure : key row = pure row_key := hkey
        rw [look_at_row, hpure, pure_bind] at h
        by_cases hseen : row_key ∈ found.1
        · rw [if_pos hseen, pure_bind] at h
          exact ih h
        · rw [if_neg hseen, pure_bind] at h
          exact ih h

/-- If the pass returns early, then it is for a row whose key cannot be made. -/
theorem error_of_look_at_rows {rows : List Nat} {found : List String × Failures F}
    {result : ValidationResult F}
    (h : rows.foldlM (look_at_row key sample) found = (throw result : RowM F _)) :
    ∃ row ∈ rows, key row = throw result := by
  induction rows generalizing found with
  | nil => cases h
  | cons row rows ih =>
    rw [List.foldlM_cons] at h
    cases hkey : key row with
    | none =>
      rw [look_at_row, hkey] at h
      cases h
    | some stopped =>
      cases stopped with
      | error e =>
        rw [look_at_row, hkey] at h
        cases h
        exact ⟨row, List.mem_cons_self, hkey⟩
      | ok row_key =>
        have hpure : key row = pure row_key := hkey
        rw [look_at_row, hpure, pure_bind] at h
        by_cases hseen : row_key ∈ found.1
        · rw [if_pos hseen, pure_bind] at h
          obtain ⟨row', hrow', hthrow⟩ := ih h
          exact ⟨row', List.mem_cons_of_mem _ hrow', hthrow⟩
        · rw [if_neg hseen, pure_bind] at h
          obtain ⟨row', hrow', hthrow⟩ := ih h
          exact ⟨row', List.mem_cons_of_mem _ hrow', hthrow⟩

/-- What a validator returns that goes through the rows. -/
theorem finish_eq_some {row_count : Nat} {g : Failures F → ValidationResult F}
    {result : ValidationResult F}
    (h : finish (do
      let duplicates ← repeated_rows key sample row_count
      return g duplicates) = some result) :
    (∃ failures, result = g failures ∧ ∀ row < row_count, ∃ row_key, key row = pure row_key) ∨
      ∃ row < row_count, key row = throw result := by
  cases hfold : (List.range row_count).foldlM (look_at_row key sample) ([], .none) with
  | none =>
    rw [repeated_rows, hfold] at h
    cases h
  | some stopped =>
    rw [repeated_rows, hfold] at h
    cases stopped with
    | error e =>
      cases h
      obtain ⟨row, hrow, hkey⟩ := error_of_look_at_rows hfold
      exact .inr ⟨row, List.mem_range.mp hrow, hkey⟩
    | ok found =>
      cases h
      exact .inl ⟨found.2, rfl, fun row hrow =>
        key_of_look_at_rows hfold row (List.mem_range.mpr hrow)⟩

/-- The first row decides if its key cannot be made. -/
theorem repeated_rows_throw {row_count : Nat} {result : ValidationResult F}
    (hrows : 0 < row_count) (hkey : key 0 = throw result) :
    repeated_rows key sample row_count = throw result := by
  obtain ⟨n, rfl⟩ := Nat.exists_eq_succ_of_ne_zero hrows.ne'
  rw [repeated_rows, List.range_succ_eq_map, List.foldlM_cons, look_at_row, hkey]
  rfl

end pass

/-! ### Computations with a step for each column -/

section columns
variable {α : Type} {f : String → RowM F α} {columns : List String}

theorem mapM_eq_pure {g : String → α} (h : ∀ name ∈ columns, f name = pure (g name)) :
    columns.mapM f = pure (columns.map g) := by
  induction columns with
  | nil => rfl
  | cons name columns ih =>
    rw [List.forall_mem_cons] at h
    rw [List.mapM_cons, h.1, pure_bind, ih h.2, pure_bind, List.map_cons]

/-- The first column without a part decides. -/
theorem mapM_eq_throw {g : String → α} {before after : List String} {name : String}
    {result : ValidationResult F} (hbefore : ∀ name ∈ before, f name = pure (g name))
    (hname : f name = throw result) : (before ++ name :: after).mapM f = throw result := by
  induction before with
  | nil =>
    rw [List.nil_append, List.mapM_cons, hname]
    rfl
  | cons first before ih =>
    rw [List.forall_mem_cons] at hbefore
    rw [List.cons_append, List.mapM_cons, hbefore.1, pure_bind, ih hbefore.2]
    rfl

theorem of_mapM_eq_pure {parts : List α} (h : columns.mapM f = pure parts) :
    ∀ name ∈ columns, ∃ part, f name = pure part := by
  induction columns generalizing parts with
  | nil => simp
  | cons name columns ih =>
    rw [List.mapM_cons] at h
    cases hname : f name with
    | none =>
      rw [hname] at h
      cases h
    | some result =>
      cases result with
      | error e =>
        rw [hname] at h
        cases h
      | ok part =>
        have hpure : f name = pure part := hname
        rw [hpure, pure_bind] at h
        cases hrest : columns.mapM f with
        | none =>
          rw [hrest] at h
          cases h
        | some result =>
          cases result with
          | error e =>
            rw [hrest] at h
            cases h
          | ok parts' =>
            rw [List.forall_mem_cons]
            exact ⟨⟨part, hpure⟩, ih hrest⟩

theorem of_mapM_eq_throw {result : ValidationResult F} (h : columns.mapM f = throw result) :
    ∃ name ∈ columns, f name = throw result := by
  induction columns with
  | nil => cases h
  | cons name columns ih =>
    rw [List.mapM_cons] at h
    cases hname : f name with
    | none =>
      rw [hname] at h
      cases h
    | some stopped =>
      rw [hname] at h
      cases stopped with
      | error e =>
        cases h
        exact ⟨name, List.mem_cons_self, hname⟩
      | ok part =>
        cases hrest : columns.mapM f with
        | none =>
          rw [hrest] at h
          cases h
        | some stopped =>
          rw [hrest] at h
          cases stopped with
          | ok parts => cases h
          | error e =>
            cases h
            obtain ⟨name', hname', hthrow⟩ := ih hrest
            exact ⟨name', List.mem_cons_of_mem _ hname', hthrow⟩

end columns

/-! ### The values of a row -/

section values
variable {data : AssetOutput F} {row_idx : Nat} {name : String}

theorem value_at_eq {values : List (Value F)} (hcolumn : data.get_column name = some values)
    (hrow : row_idx < values.length) : value_at data row_idx name = values[row_idx] := by
  rw [value_at, hcolumn, Option.getD_some, List.getD_eq_getElem?_getD,
    List.getElem?_eq_getElem hrow, Option.getD_some]

theorem index_eq_pure {values : List (Value F)} (hrow : row_idx < values.length) :
    index values row_idx = pure values[row_idx] := by
  rw [index, List.getElem?_eq_getElem hrow]
  rfl

/-- An index out of bounds panics. -/
theorem index_eq_none {values : List (Value F)} (hrow : values.length ≤ row_idx) :
    index values row_idx = (none : Option (Except (ValidationResult F) (Value F))) := by
  rw [index, List.getElem?_eq_none hrow]
  rfl

variable [F64 F]

theorem key_part_eq (hfull : Full data name) (hrow : row_idx < data.row_count) :
    key_part data row_idx name = pure (value_at data row_idx name).to_text := by
  obtain ⟨values, hcolumn, hlength⟩ := hfull
  rw [value_at_eq hcolumn (by omega), key_part, hcolumn]
  simp only [index_eq_pure (show row_idx < values.length by omega), pure_bind]

theorem key_part_missing (hcolumn : data.get_column name = none) :
    key_part data row_idx name = throw (.column_not_found name) := by
  rw [key_part, hcolumn]

theorem of_key_part_eq_pure {part : String} (h : key_part data row_idx name = pure part) :
    ∃ values, data.get_column name = some values ∧ row_idx < values.length := by
  cases hcolumn : data.get_column name with
  | none =>
    rw [key_part_missing hcolumn] at h
    cases h
  | some values =>
    refine ⟨values, rfl, ?_⟩
    rw [key_part, hcolumn] at h
    by_contra hge
    simp only [index_eq_none (show values.length ≤ row_idx by omega)] at h
    cases h

theorem push_value_eq (hfull : Full data name) (hrow : row_idx < data.row_count)
    (row_key : String) :
    push_value data row_idx row_key name =
      pure (row_key ++ (value_at data row_idx name).to_text ++ "|") := by
  obtain ⟨values, hcolumn, hlength⟩ := hfull
  rw [value_at_eq hcolumn (by omega), push_value, hcolumn]
  simp only [index_eq_pure (show row_idx < values.length by omega), pure_bind]

theorem push_value_missing (hcolumn : data.get_column name = none) (row_key : String) :
    push_value data row_idx row_key name = pure row_key := by
  rw [push_value, hcolumn]

/-- A key is pushed together from the columns that exist. -/
theorem push_values_eq {columns : List String} (hrow : row_idx < data.row_count)
    (hfull : ∀ name ∈ columns, data.has_column name = true → Full data name) (row_key : String) :
    columns.foldlM (push_value data row_idx) row_key =
      (pure ((tuple data (columns.filter data.has_column) row_idx).foldl
        (fun key text => key ++ text ++ "|") row_key) : RowM F String) := by
  induction columns generalizing row_key with
  | nil => rfl
  | cons name columns ih =>
    rw [List.forall_mem_cons] at hfull
    rw [List.foldlM_cons]
    by_cases hcolumn : data.has_column name = true
    · rw [push_value_eq (hfull.1 hcolumn) hrow, pure_bind, ih hfull.2,
        List.filter_cons_of_pos hcolumn]
      rfl
    · have hnone : data.get_column name = none := by
        rw [AssetOutput.has_column, Bool.not_eq_true, Option.isSome_eq_false_iff,
          Option.isNone_iff_eq_none] at hcolumn
        exact hcolumn
      rw [push_value_missing hnone, pure_bind, ih hfull.2, List.filter_cons_of_neg hcolumn]

/-- A column that is too short for a row makes the key panic. -/
theorem of_push_values_eq_pure {columns : List String} {row_key row_key' : String}
    (h : columns.foldlM (push_value data row_idx) row_key = (pure row_key' : RowM F String)) :
    ∀ name ∈ columns, ∀ values, data.get_column name = some values → row_idx < values.length := by
  induction columns generalizing row_key with
  | nil => simp
  | cons name columns ih =>
    rw [List.foldlM_cons] at h
    rw [List.forall_mem_cons]
    cases hcolumn : data.get_column name with
    | none =>
      rw [push_value_missing hcolumn, pure_bind] at h
      refine ⟨?_, ih h⟩
      intro values hvalues
      cases hvalues
    | some values =>
      by_cases hrow : row_idx < values.length
      · rw [push_value, hcolumn] at h
        simp only [index_eq_pure hrow, pure_bind] at h
        refine ⟨?_, ih h⟩
        intro values' hvalues'
        cases hvalues'
        exact hrow
      · have hindex : index values row_idx =
            (none : Option (Except (ValidationResult F) (Value F))) := by
          rw [index, List.getElem?_eq_none (by omega)]
          rfl
        rw [push_value, hcolumn] at h
        simp only [hindex] at h
        cases h

/-- No column is missed by a key that is pushed together. -/
theorem push_values_ne_throw {columns : List String} {row_key : String}
    {result : ValidationResult F} :
    columns.foldlM (push_value data row_idx) row_key ≠ (throw result : RowM F String) := by
  induction columns generalizing row_key with
  | nil =>
    intro h
    cases h
  | cons name columns ih =>
    rw [List.foldlM_cons]
    cases hcolumn : data.get_column name with
    | none =>
      rw [push_value_missing hcolumn, pure_bind]
      exact ih
    | some values =>
      rw [push_value, hcolumn]
      by_cases hrow : row_idx < values.length
      · simp only [index_eq_pure hrow, pure_bind]
        exact ih
      · simp only [index_eq_none (show values.length ≤ row_idx by omega)]
        intro h
        cases h

theorem of_key_part_eq_throw {result : ValidationResult F}
    (h : key_part data row_idx name = throw result) :
    result = .column_not_found name ∧ data.get_column name = none := by
  cases hcolumn : data.get_column name with
  | none =>
    rw [key_part_missing hcolumn] at h
    cases h
    exact ⟨rfl, rfl⟩
  | some values =>
    rw [key_part, hcolumn] at h
    by_cases hrow : row_idx < values.length
    · simp only [index_eq_pure hrow, pure_bind] at h
      cases h
    · simp only [index_eq_none (show values.length ≤ row_idx by omega)] at h
      cases h

end values

/-! ### What the two validators return -/

section validators
variable [F64 F] {libraries : Libraries F} {data : AssetOutput F} {columns : List String}

/-- The rows with the key of an earlier row, for `validate_unique`. -/
def duplicate_keys (data : AssetOutput F) (columns : List String) : Failures F :=
  .found (fun row_idx => .object [("columns", .array (columns.map .string)),
      ("duplicate_key", .string ("|".intercalate (tuple data columns row_idx))),
      ("row", .of_nat row_idx)])
    (repeats (fun row_idx => "|".intercalate (tuple data columns row_idx)) []
      (List.range data.row_count))

/-- The rows with the key of an earlier row, for `validate_no_duplicate_rows`. -/
def duplicate_rows (data : AssetOutput F) (columns : List String) : Failures F :=
  .found (fun row_idx => .object [("reason", .string "duplicate row"), ("row", .of_nat row_idx)])
    (repeats (fun row_idx => (tuple data columns row_idx).foldl
      (fun key text => key ++ text ++ "|") "") [] (List.range data.row_count))

theorem validate_unique_full (hne : columns ≠ []) (hfull : ∀ name ∈ columns, Full data name) :
    validate_unique libraries data columns =
      some ((duplicate_keys data columns).result data.row_count
        (toString (duplicate_keys data columns).count ++ " duplicate values found in columns " ++
          debug_list (columns.map libraries.debug))) := by
  have hkey : ∀ row_idx < data.row_count, (do
      let key_parts ← columns.mapM (key_part data row_idx)
      return "|".intercalate key_parts : RowM F String) =
        pure ("|".intercalate (tuple data columns row_idx)) := by
    intro row_idx hrow
    rw [mapM_eq_pure fun name hname => key_part_eq (hfull name hname) hrow, pure_bind]
    rfl
  rw [validate_unique, if_neg hne]
  dsimp only
  rw [repeated_rows_eq hkey]
  rfl

/-- Without rows no column is looked at. -/
theorem validate_unique_no_rows (hne : columns ≠ []) (hrows : data.row_count = 0) :
    validate_unique libraries data columns = some (.pass 0) := by
  rw [validate_unique, if_neg hne]
  dsimp only
  rw [repeated_rows, hrows]
  rfl

/-- The first row is an error if a column is missing. -/
theorem validate_unique_first_missing {before after : List String} {name : String}
    (hbefore : ∀ name ∈ before, Full data name) (hname : data.get_column name = none)
    (hrows : 0 < data.row_count) :
    validate_unique libraries data (before ++ name :: after) = some (.column_not_found name) := by
  have hkey : (do
      let key_parts ← (before ++ name :: after).mapM (key_part data 0)
      return "|".intercalate key_parts : RowM F String) = throw (.column_not_found name) := by
    rw [mapM_eq_throw (fun first hfirst => key_part_eq (hbefore first hfirst) hrows)
      (key_part_missing hname)]
    rfl
  rw [validate_unique, if_neg (by simp)]
  dsimp only
  rw [repeated_rows_throw hrows hkey]
  rfl

/-- Failures are counted only if each column has a value for each row. -/
theorem full_of_validate_unique {result : ValidationResult F} (hne : columns ≠ [])
    (h : validate_unique libraries data columns = some result) :
    result.failed_count = none ∨ data.row_count = 0 ∨ ∀ name ∈ columns, Full data name := by
  rw [validate_unique, if_neg hne] at h
  rcases finish_eq_some h with ⟨failures, -, hkeys⟩ | ⟨row, -, hkey⟩
  · right
    by_cases hrows : data.row_count = 0
    · exact .inl hrows
    · obtain ⟨row_key, hkey⟩ := hkeys (data.row_count - 1) (by omega)
      right
      intro name hname
      cases hparts : columns.mapM (key_part data (data.row_count - 1)) with
      | none =>
        rw [hparts] at hkey
        cases hkey
      | some stopped =>
        cases stopped with
        | error e =>
          rw [hparts] at hkey
          cases hkey
        | ok parts =>
          obtain ⟨part, hpart⟩ := of_mapM_eq_pure hparts name hname
          obtain ⟨values, hcolumn, hlt⟩ := of_key_part_eq_pure hpart
          exact ⟨values, hcolumn, by omega⟩
  · left
    cases hparts : columns.mapM (key_part data row) with
    | none =>
      rw [hparts] at hkey
      cases hkey
    | some stopped =>
      rw [hparts] at hkey
      cases stopped with
      | ok parts => cases hkey
      | error e =>
        cases hkey
        obtain ⟨name, -, hname⟩ := of_mapM_eq_throw hparts
        rw [(of_key_part_eq_throw hname).1]
        rfl

theorem validate_no_duplicate_rows_full (hne : columns ≠ [])
    (hfull : ∀ name ∈ columns, data.has_column name = true → Full data name) :
    validate_no_duplicate_rows data (some columns) =
      some ((duplicate_rows data (columns.filter data.has_column)).result data.row_count
        (toString (duplicate_rows data (columns.filter data.has_column)).count ++
          " duplicate rows found")) := by
  have hkey : ∀ row_idx < data.row_count,
      columns.foldlM (push_value data row_idx) "" = (pure
        ((tuple data (columns.filter data.has_column) row_idx).foldl
          (fun key text => key ++ text ++ "|") "") : RowM F String) :=
    fun row_idx hrow => push_values_eq hrow hfull ""
  rw [validate_no_duplicate_rows, Option.getD_some, if_neg hne]
  dsimp only
  rw [repeated_rows_eq hkey]
  rfl

/-- Failures are counted, if columns that are too short do not make it panic. -/
theorem of_validate_no_duplicate_rows {result : ValidationResult F} (hne : columns ≠ [])
    (h : validate_no_duplicate_rows data (some columns) = some result) :
    result.failed_count ≠ none ∧ (data.row_count = 0 ∨
      ∀ name ∈ columns, data.has_column name = true → Full data name) := by
  rw [validate_no_duplicate_rows, Option.getD_some, if_neg hne] at h
  rcases finish_eq_some h with ⟨failures, rfl, hkeys⟩ | ⟨row, -, hkey⟩
  · refine ⟨by rw [Failures.failed_count_result]; exact Option.some_ne_none _, ?_⟩
    by_cases hrows : data.row_count = 0
    · exact .inl hrows
    · obtain ⟨row_key, hkey⟩ := hkeys (data.row_count - 1) (by omega)
      right
      intro name hname hcolumn
      obtain ⟨values, hvalues⟩ := Option.isSome_iff_exists.mp hcolumn
      have hlt := of_push_values_eq_pure hkey name hname values hvalues
      exact ⟨values, hvalues, by omega⟩
  · exact absurd hkey push_values_ne_throw

end validators

/-! ### Keys and tuples -/

section tuples
variable [F64 F] {data : AssetOutput F} {columns : List String}

theorem sealed_tuple (hnumbers : NumberTexts F) (row_idx : Nat) :
    ∀ text ∈ tuple data columns row_idx, SealedText text := by
  intro text htext
  obtain ⟨name, -, rfl⟩ := List.mem_map.mp htext
  exact sealed_to_text hnumbers _

/-- The keys of `validate_unique` determine the texts of the values. -/
theorem joined_tuple_eq_iff (hnumbers : NumberTexts F) (hne : columns ≠ []) (row row' : Nat) :
    "|".intercalate (tuple data columns row) = "|".intercalate (tuple data columns row') ↔
      tuple data columns row = tuple data columns row' := by
  have htuple : ∀ row, tuple data columns row ≠ [] := by
    intro row hnil
    exact hne (List.map_eq_nil_iff.mp hnil)
  constructor
  · exact joined_texts_inj (sealed_tuple hnumbers row) (sealed_tuple hnumbers row') (htuple row)
      (htuple row')
  · intro h
    rw [h]

/-- The keys of `validate_no_duplicate_rows` determine the texts of the values. -/
theorem pushed_tuple_eq_iff (hnumbers : NumberTexts F) (row row' : Nat) :
    (tuple data columns row).foldl (fun key text => key ++ text ++ "|") "" =
        (tuple data columns row').foldl (fun key text => key ++ text ++ "|") "" ↔
      tuple data columns row = tuple data columns row' := by
  constructor
  · exact pushed_texts_inj (sealed_tuple hnumbers row) (sealed_tuple hnumbers row')
  · intro h
    rw [h]

theorem count_duplicate_keys (hnumbers : NumberTexts F) (hne : columns ≠ []) :
    (duplicate_keys data columns).count =
      (repeats (tuple data columns) [] (List.range data.row_count)).length := by
  rw [duplicate_keys, Failures.count_found]
  exact congrArg List.length (Repeats.repeats_congr fun row _ row' _ =>
    joined_tuple_eq_iff hnumbers hne row row')

theorem count_duplicate_rows (hnumbers : NumberTexts F) :
    (duplicate_rows data columns).count =
      (repeats (tuple data columns) [] (List.range data.row_count)).length := by
  rw [duplicate_rows, Failures.count_found]
  exact congrArg List.length (Repeats.repeats_congr fun row _ row' _ =>
    pushed_tuple_eq_iff hnumbers row row')

end tuples

end Servo.CheckValidator
