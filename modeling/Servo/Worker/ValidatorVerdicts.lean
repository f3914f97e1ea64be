import Servo.Worker.CheckWire

/-! # What Passes a Validator

    When the validators of the worker pass an output: which values each of
    them counts as failures, without the samples and the messages it collects.
-/

namespace Servo.CheckValidator

variable {F : Type}

/-! ### Counting failures -/

namespace Failures

@[simp] theorem count_none : (none : Failures F).count = 0 := rfl

@[simp] theorem count_add (failures : Failures F) (sample : Value F) :
    (failures.add sample).count = failures.count + 1 := rfl

theorem passed_result {failures : Failures F} {total : Nat} {message : String} :
    (failures.result total message).passed = true ↔ failures.count = 0 := by
  unfold result
  split
  · next h => exact iff_of_true rfl h
  · next h => exact iff_of_false (by rintro ⟨⟩) h

end Failures

/-- A loop over values that adds the failures among them. -/
theorem count_foldl_failures (fails : Value F × Nat → Option (Value F))
    (values : List (Value F × Nat)) (failures : Failures F) :
    (values.foldl (fun failures entry =>
      match fails entry with
      | some sample => failures.add sample
      | none => failures) failures).count =
      failures.count + (values.filter fun entry => (fails entry).isSome).length := by
  induction values generalizing failures with
  | nil => rfl
  | cons entry values ih =>
    rw [List.foldl_cons, ih, List.filter_cons]
    cases hfails : fails entry with
    | none => simp
    | some sample =>
      simp only [Failures.count_add, Option.isSome_some, if_true, List.length_cons]
      omega

theorem count_eq_zero_of_foldl (fails : Value F × Nat → Option (Value F))
    (values : List (Value F × Nat)) (failures : Failures F) :
    (values.foldl (fun failures entry =>
      match fails entry with
      | some sample => failures.add sample
      | none => failures) failures).count = 0 ↔
      failures.count = 0 ∧ ∀ entry ∈ values, fails entry = none := by
  rw [count_foldl_failures, Nat.add_eq_zero_iff, List.length_eq_zero_iff, List.filter_eq_nil_iff]
  simp

/-- No value fails. -/
theorem count_failing_values {fails : Nat → Value F → Option (Value F)} {ok : Value F → Prop}
    (hok : ∀ idx value, fails idx value = none ↔ ok value) (values : List (Value F)) :
    (failing_values fails values).count = 0 ↔ ∀ value ∈ values, ok value := by
  have hcount := count_eq_zero_of_foldl (fun entry => fails entry.2 entry.1) values.zipIdx .none
  refine hcount.trans ⟨fun h value hvalue => ?_, fun h => ⟨rfl, fun entry hentry => ?_⟩⟩
  · obtain ⟨i, hi, rfl⟩ := List.getElem_of_mem hvalue
    exact (hok _ _).mp (h.2 (values[i], i) (List.mem_zipIdx_iff_getElem?.mpr
      (List.getElem?_eq_getElem hi)))
  · exact (hok _ _).mpr (h entry.1 (List.fst_mem_of_mem_zipIdx hentry))

/-- A validator of one column passes where the column exists and no value fails. -/
theorem passed_validate_column {data : AssetOutput F} {column : String}
    {fails : Nat → Value F → Option (Value F)} {message : Nat → String} {ok : Value F → Prop}
    (hok : ∀ idx value, fails idx value = none ↔ ok value) :
    (validate_column data column fails message).passed = true ↔
      ∃ values, data.get_column column = some values ∧ ∀ value ∈ values, ok value := by
  unfold validate_column
  cases hcolumn : data.get_column column with
  | none =>
    refine iff_of_false (by rintro ⟨⟩) ?_
    rintro ⟨values, ⟨⟩, -⟩
  | some values =>
    rw [Failures.passed_result, count_failing_values hok]
    exact ⟨fun h => ⟨values, rfl, h⟩, by rintro ⟨_, ⟨⟩, h⟩; exact h⟩

/-- A null value fails. -/
def null_fails (name : String) (entry : Value F × Nat) : Option (Value F) :=
  if entry.1.is_null then
    some (.object [("column", .string name), ("reason", .string "null value"),
      ("row", .of_nat entry.2)])
  else none

theorem null_values_eq_foldl (name : String) (values : List (Value F)) (failures : Failures F) :
    null_values name values failures = values.zipIdx.foldl (fun failures entry =>
      match null_fails name entry with
      | some sample => failures.add sample
      | none => failures) failures := by
  unfold null_values
  congr 1
  funext failures entry
  obtain ⟨value, idx⟩ := entry
  cases hnull : value.is_null <;> simp [null_fails, hnull]

/-- The null values of one more column. -/
theorem count_null_values {name : String} {values : List (Value F)} {failures : Failures F} :
    (null_values name values failures).count = 0 ↔
      failures.count = 0 ∧ ∀ value ∈ values, value.is_null = false := by
  rw [null_values_eq_foldl, count_eq_zero_of_foldl]
  refine and_congr_right fun _ => ⟨fun h value hvalue => ?_, fun h entry hentry => ?_⟩
  · obtain ⟨i, hi, rfl⟩ := List.getElem_of_mem hvalue
    have hentry := h (values[i], i) (List.mem_zipIdx_iff_getElem?.mpr
      (List.getElem?_eq_getElem hi))
    cases hnull : values[i].is_null with
    | false => rfl
    | true => simp [null_fails, hnull] at hentry
  · have hnull := h entry.1 (List.fst_mem_of_mem_zipIdx hentry)
    simp [null_fails, hnull]

/-! ### Columns without null values -/

section not_null
variable {data : AssetOutput F}

/-- The null values of a column, if it exists. -/
def add_column (data : AssetOutput F) (failures : Failures F) (name : String) :
    Except (ValidationResult F) (Failures F) :=
  match data.get_column name with
  | some values => .ok (null_values name values failures)
  | none => .error (.column_not_found name)

/-- The columns exist and have no null values. -/
def NoNulls (data : AssetOutput F) (columns : List String) : Prop :=
  ∀ name ∈ columns, ∃ values, data.get_column name = some values ∧
    ∀ value ∈ values, value.is_null = false

/-- One column after the other, until one is missing. -/
theorem nulls_of_columns (columns : List String) (failures : Failures F) :
    (∃ found, columns.foldlM (add_column data) failures = .ok found ∧
      (found.count = 0 ↔ failures.count = 0 ∧ NoNulls data columns)) ∨
    ∃ name ∈ columns, data.get_column name = none ∧
      columns.foldlM (add_column data) failures = .error (.column_not_found name) := by
  induction columns generalizing failures with
  | nil => exact .inl ⟨failures, rfl, by simp [NoNulls]⟩
  | cons name columns ih =>
    cases hcolumn : data.get_column name with
    | none =>
      refine .inr ⟨name, List.mem_cons_self, hcolumn, ?_⟩
      rw [List.foldlM_cons, add_column, hcolumn]
      rfl
    | some values =>
      have hstep : (name :: columns).foldlM (add_column data) failures =
          columns.foldlM (add_column data) (null_values name values failures) := by
        rw [List.foldlM_cons, add_column, hcolumn]
        rfl
      rw [hstep]
      rcases ih (null_values name values failures) with ⟨found, hfound, hcount⟩ |
        ⟨name', hmem, hmissing, herror⟩
      · refine .inl ⟨found, hfound, ?_⟩
        rw [hcount, count_null_values, and_assoc, NoNulls, NoNulls, List.forall_mem_cons, hcolumn]
        refine and_congr_right fun _ => and_congr_left fun _ => ?_
        exact ⟨fun h => ⟨values, rfl, h⟩, by rintro ⟨_, ⟨⟩, h⟩; exact h⟩
      · exact .inr ⟨name', List.mem_cons_of_mem _ hmem, hmissing, herror⟩

theorem passed_validate_not_null [F64 F] {libraries : Libraries F} {columns : List String} :
    (validate_not_null libraries data columns).passed = true ↔ NoNulls data columns := by
  simp only [validate_not_null]
  rcases nulls_of_columns columns .none with ⟨found, hfound, hcount⟩ |
    ⟨name, hmem, hmissing, herror⟩
  · split
    case h_1 failures hrun =>
      cases hfound.symm.trans hrun
      rw [Failures.passed_result, hcount]
      exact and_iff_right rfl
    case h_2 result hrun => cases hfound.symm.trans hrun
  · split
    case h_1 failures hrun => cases herror.symm.trans hrun
    case h_2 result hrun =>
      cases herror.symm.trans hrun
      refine iff_of_false (by rintro ⟨⟩) fun h => ?_
      obtain ⟨values, hvalues, -⟩ := h name hmem
      rw [hmissing] at hvalues
      cases hvalues

end not_null

/-! ### Distinct rows -/

section unique

/-- The rows whose key has been seen, when every row has a key. -/
theorem count_of_rows {key : Nat → RowM F String} {k : Nat → String}
    (sample : Nat → String → Value F) (rows : List Nat) (found : List String × Failures F)
    (hkey : ∀ row ∈ rows, key row = pure (k row)) :
    ∃ found' : List String × Failures F,
      rows.foldlM (look_at_row key sample) found = (pure found' : RowM F _) ∧
      (found'.2.count = 0 ↔ found.2.count = 0 ∧ (rows.map k).Nodup ∧
        ∀ row ∈ rows, k row ∉ found.1) := by
  induction rows generalizing found with
  | nil => exact ⟨found, rfl, by simp⟩
  | cons row rows ih =>
    rw [List.forall_mem_cons] at hkey
    by_cases hseen : k row ∈ found.1
    · obtain ⟨found', hfold, hcount⟩ := ih (found.1, found.2.add (sample row (k row))) hkey.2
      refine ⟨found', ?_, ?_⟩
      · rw [List.foldlM_cons, ← hfold, look_at_row, hkey.1, pure_bind, if_pos hseen, pure_bind]
      · rw [hcount, Failures.count_add]
        refine iff_of_false (by rintro ⟨⟨⟩, -⟩) ?_
        rintro ⟨-, -, hnot⟩
        exact hnot row List.mem_cons_self hseen
    · obtain ⟨found', hfold, hcount⟩ := ih (k row :: found.1, found.2) hkey.2
      refine ⟨found', ?_, ?_⟩
      · rw [List.foldlM_cons, ← hfold, look_at_row, hkey.1, pure_bind, if_neg hseen, pure_bind]
      · rw [hcount, List.map_cons, List.nodup_cons, List.forall_mem_cons, and_assoc]
        refine and_congr_right fun _ => ?_
        simp only [List.mem_cons, not_or, List.mem_map, not_exists, not_and]
        constructor
        · intro ⟨hnodup, hrows⟩
          exact ⟨fun r hr heq => (hrows r hr).1 heq, hnodup, hseen, fun r hr => (hrows r hr).2⟩
        · rintro ⟨hnot, hnodup, -, hrows⟩
          exact ⟨hnodup, fun r hr => ⟨fun heq => hnot r hr heq, hrows r hr⟩⟩

theorem count_repeated_rows {key : Nat → RowM F String} {k : Nat → String}
    (sample : Nat → String → Value F) (row_count : Nat)
    (hkey : ∀ row_idx < row_count, key row_idx = pure (k row_idx)) :
    ∃ failures, repeated_rows key sample row_count = (pure failures : RowM F _) ∧
      (failures.count = 0 ↔ ((List.range row_count).map k).Nodup) := by
  obtain ⟨found, hfold, hcount⟩ := count_of_rows sample (List.range row_count) ([], .none)
    fun row hrow => hkey row (List.mem_range.mp hrow)
  refine ⟨found.2, ?_, ?_⟩
  · rw [repeated_rows, hfold, pure_bind]
  · rw [hcount]
    simp

variable [F64 F] {libraries : Libraries F} {data : AssetOutput F} {column : String}

/-- A full column passes when its values have different texts. -/
theorem passed_validate_unique {values : List (Value F)}
    (hcolumn : data.get_column column = some values) (hlength : values.length = data.row_count) :
    ∃ result, validate_unique libraries data [column] = some result ∧
      (result.passed = true ↔ (values.map Value.to_text).Nodup) := by
  let k := fun row_idx => (values.getD row_idx .null).to_text
  have hkey : ∀ row_idx < data.row_count, (do
      let key_parts ← [column].mapM (key_part data row_idx)
      return "|".intercalate key_parts : RowM F String) = pure (k row_idx) := by
    intro row_idx hrow
    have hvalue : values[row_idx]? = some (values.getD row_idx .null) := by
      rw [List.getD_eq_getElem?_getD, List.getElem?_eq_getElem (by omega)]
      rfl
    have hindex : index values row_idx = pure (values.getD row_idx .null) := by
      rw [index, hvalue]
      rfl
    have hpart : key_part data row_idx column = pure (k row_idx) := by
      rw [key_part, hcolumn]
      simp only [hindex, pure_bind]
      rfl
    rw [List.mapM_cons, hpart]
    rfl
  obtain ⟨failures, hrepeated, hcount⟩ := count_repeated_rows (fun row_idx key =>
    .object [("columns", .array ([column].map .string)), ("duplicate_key", .string key),
      ("row", .of_nat row_idx)]) data.row_count hkey
  have htexts : (List.range data.row_count).map k = values.map Value.to_text := by
    rw [← hlength]
    refine List.ext_getElem (by simp) fun i hi hi' => ?_
    have hi' : i < values.length := by simpa using hi'
    rw [List.getElem_map, List.getElem_map, List.getElem_range]
    refine congrArg Value.to_text ?_
    rw [List.getD_eq_getElem?_getD, List.getElem?_eq_getElem hi']
    rfl
  refine ⟨failures.result data.row_count (toString failures.count ++
    " duplicate values found in columns " ++ debug_list ([column].map libraries.debug)), ?_, ?_⟩
  · rw [validate_unique, if_neg (List.cons_ne_nil _ _)]
    dsimp only
    rw [hrepeated]
    rfl
  · rw [Failures.passed_result, hcount, htexts]

/-- A missing column is an error, as long as there are rows. -/
theorem validate_unique_missing (hcolumn : data.get_column column = none)
    (hrows : 0 < data.row_count) :
    validate_unique libraries data [column] = some (.column_not_found column) := by
  obtain ⟨n, hn⟩ := Nat.exists_eq_succ_of_ne_zero hrows.ne'
  rw [validate_unique, if_neg (List.cons_ne_nil _ _)]
  dsimp only
  rw [repeated_rows, hn, List.range_succ_eq_map, List.foldlM_cons, look_at_row, List.mapM_cons,
    key_part, hcolumn]
  rfl

/-- Without rows no column is looked at. -/
theorem validate_unique_empty (hrows : data.row_count = 0) :
    validate_unique libraries data [column] = some (.pass 0) := by
  rw [validate_unique, if_neg (List.cons_ne_nil _ _)]
  dsimp only
  rw [repeated_rows, hrows]
  rfl

end unique

/-! ### Values of one column -/

section column
variable [F64 F] {libraries : Libraries F} {data : AssetOutput F} {column : String}

/-- The values that are in range for the worker: nulls, and numbers within the bounds there
    are. -/
def InRange (min max : Option F) : Value F → Prop
  | .null => True
  | .number n =>
    min.any (fun m => F64.lt n.as_f64 m) = false ∧ max.any (fun m => F64.lt m n.as_f64) = false
  | _ => False

theorem out_of_range_eq_none_iff {min max : Option F} (idx : Nat) (value : Value F) :
    out_of_range column min max idx value = none ↔ InRange min max value := by
  cases value with
  | null => exact iff_of_true rfl trivial
  | number n =>
    unfold out_of_range InRange
    dsimp only
    cases min.any (fun m => F64.lt n.as_f64 m) <;>
      cases max.any (fun m => F64.lt m n.as_f64) <;> simp
  | _ => exact iff_of_false (by rintro ⟨⟩) id

theorem passed_validate_in_range {min max : Option F} :
    (validate_in_range data column min max).passed = true ↔
      ∃ values, data.get_column column = some values ∧ ∀ value ∈ values, InRange min max value :=
  passed_validate_column out_of_range_eq_none_iff

omit [F64 F] in
/-- The values that match for the worker: nulls, and texts in which there is a match. -/
def Matches (is_match : String → Bool) : Value F → Prop
  | .null => True
  | .string text => is_match text = true
  | _ => False

omit [F64 F] in
theorem non_matching_eq_none_iff {is_match : String → Bool} {pattern : String} (idx : Nat)
    (value : Value F) :
    non_matching is_match column pattern idx value = none ↔ Matches is_match value := by
  cases value with
  | null => exact iff_of_true rfl trivial
  | string text =>
    unfold non_matching Matches
    cases is_match text <;> simp
  | _ => exact iff_of_false (by rintro ⟨⟩) id

omit [F64 F] in
theorem passed_validate_regex {pattern : String} :
    (validate_regex libraries data column pattern).passed = true ↔
      ∃ is_match, libraries.regex pattern = .ok is_match ∧
        ∃ values, data.get_column column = some values ∧
          ∀ value ∈ values, Matches is_match value := by
  unfold validate_regex
  cases hregex : libraries.regex pattern with
  | error e =>
    refine iff_of_false (by rintro ⟨⟩) ?_
    rintro ⟨is_match, ⟨⟩, -⟩
  | ok is_match =>
    refine (passed_validate_column non_matching_eq_none_iff).trans ?_
    exact ⟨fun h => ⟨is_match, rfl, h⟩, by rintro ⟨_, ⟨⟩, h⟩; exact h⟩

/-- The values that are accepted by the worker: nulls, and those with the text of a listed one. -/
def Accepted (accepted : List (Value F)) (value : Value F) : Prop :=
  value.is_null = true ∨ value.to_text ∈ accepted.map Value.to_text

theorem not_accepted_eq_none_iff {accepted : List (Value F)} (idx : Nat) (value : Value F) :
    not_accepted column accepted idx value = none ↔ Accepted accepted value := by
  unfold not_accepted Accepted
  by_cases hnull : value.is_null = true
  · simp [hnull]
  · by_cases hlisted : value.to_text ∈ accepted.map Value.to_text
    · simp [hnull, hlisted]
    · rw [if_neg hnull, if_neg hlisted]
      exact iff_of_false (by rintro ⟨⟩) (not_or.mpr ⟨hnull, hlisted⟩)

theorem passed_validate_accepted_values {accepted : List (Value F)} :
    (validate_accepted_values data column accepted).passed = true ↔
      ∃ values, data.get_column column = some values ∧ ∀ value ∈ values, Accepted accepted value :=
  passed_validate_column not_accepted_eq_none_iff

omit [F64 F] in
theorem passed_validate_row_count {min max : Option Int} :
    (validate_row_count data min max).passed = true ↔
      (∀ m ∈ min, m ≤ data.row_count) ∧ ∀ m ∈ max, (data.row_count : Int) ≤ m := by
  have hbelow : min.any (fun m => decide ((data.row_count : Int) < m)) = true ↔
      ¬ ∀ m ∈ min, m ≤ data.row_count := by
    cases min <;> simp
  have habove : max.any (fun m => decide (m < (data.row_count : Int))) = true ↔
      ¬ ∀ m ∈ max, (data.row_count : Int) ≤ m := by
    cases max <;> simp
  unfold validate_row_count
  dsimp only
  split
  · next h => exact iff_of_false (by rintro ⟨⟩) fun hall => hbelow.mp h hall.1
  · next h =>
    split
    · next h' => exact iff_of_false (by rintro ⟨⟩) fun hall => habove.mp h' hall.2
    · next h' =>
      exact iff_of_true rfl ⟨not_not.mp (mt hbelow.mpr h), not_not.mp (mt habove.mpr h')⟩

end column

/-! ### Columns of rows -/

/-- There is a column for each field of a row, with a value for each row. -/
theorem get_column_of_rows {hash : HashOrder String} {rows : List (Value F)} (column : String) :
    (AssetOutput.from_rows hash rows).get_column column =
      if column ∈ rows.flatMap AssetOutput.keys then some (rows.map (AssetOutput.cell column))
      else none := by
  have hlookup : ∀ columns : List String,
      (columns.map fun name => (name, rows.map (AssetOutput.cell name))).lookup column =
        if column ∈ columns then some (rows.map (AssetOutput.cell column)) else none := by
    intro columns
    induction columns with
    | nil => rfl
    | cons name columns ih =>
      rw [List.map_cons, List.lookup_cons]
      by_cases hname : column = name
      · subst hname
        simp
      · rw [beq_false_of_ne hname, ih]
        simp [hname]
  show (List.map _ _).lookup column = _
  rw [hlookup]
  apply if_congr _ rfl rfl
  rw [(hash.perm _).mem_iff, List.mem_dedup]

/-- Rows with the same fields make a column of each field, as long as there is a row. -/
theorem get_column_from_rows {hash : HashOrder String} {rows : List (Value F)}
    {names : List String} (hkeys : ∀ row ∈ rows, AssetOutput.keys row = names) (column : String) :
    (AssetOutput.from_rows hash rows).get_column column =
      if rows ≠ [] ∧ column ∈ names then some (rows.map (AssetOutput.cell column)) else none := by
  rw [get_column_of_rows]
  apply if_congr _ rfl rfl
  rw [List.mem_flatMap]
  constructor
  · intro ⟨row, hrow, hcolumn⟩
    rw [hkeys row hrow] at hcolumn
    exact ⟨List.ne_nil_of_mem hrow, hcolumn⟩
  · intro ⟨hne, hcolumn⟩
    obtain ⟨row, hrow⟩ := List.exists_mem_of_ne_nil _ hne
    exact ⟨row, hrow, (hkeys row hrow).symm ▸ hcolumn⟩

end Servo.CheckValidator
