import Servo.Worker.UniqueTuples

/-! # Reference Columns among the Data

    Reference data is put into the output as one more column, which may be
    longer or shorter than the others. No check but that of referential
    integrity is about it, and none of them passes over it: a check that
    lists its name finds it, a check of all columns goes through it row by
    row, and the schema has a column more.
-/

namespace Servo.CheckValidator

open Python (exact_libraries lookup_of_perm)
open Repeats (repeats)

variable {F : Type}

/-- The same output with one more column, whose values are those of a reference table. The map of
    columns may be iterated over in another order. -/
structure Referenced (ref : String) (values : List (Value F)) (data data' : AssetOutput F) :
    Prop where
  named : ∃ reference_table reference_column, ref = ref_col_key reference_table reference_column
  columns : data'.columns.Perm ((ref, values) :: data.columns)
  row_count : data'.row_count = data.row_count

namespace Referenced
variable {ref name : String} {values : List (Value F)} {data data' : AssetOutput F}
  (h : Referenced ref values data data')
include h

theorem nodup : (((ref, values) :: data.columns).map Prod.fst).Nodup :=
  (h.columns.map Prod.fst).nodup_iff.mp data'.nodup

theorem get_column_ref : data'.get_column ref = some values := by
  rw [AssetOutput.get_column, lookup_of_perm h.columns h.nodup, List.lookup_cons_self]

theorem get_column (hname : name ≠ ref) : data'.get_column name = data.get_column name := by
  rw [AssetOutput.get_column, lookup_of_perm h.columns h.nodup, List.lookup_cons,
    beq_false_of_ne hname]
  rfl

theorem missing_ref : data.get_column ref = none := by
  have hnot : ref ∉ data.columns.map Prod.fst := (List.nodup_cons.mp h.nodup).1
  rw [AssetOutput.get_column, List.lookup_eq_none_iff]
  intro column hcolumn
  have hmem : column.1 ∈ data.columns.map Prod.fst := List.mem_map_of_mem hcolumn
  rw [bne_iff_ne]
  intro heq
  exact hnot (heq ▸ hmem)

theorem has_column (hname : name ≠ ref) : data'.has_column name = data.has_column name := by
  rw [AssetOutput.has_column, AssetOutput.has_column, h.get_column hname]

theorem has_column_ref : data'.has_column ref = true := by
  rw [AssetOutput.has_column, h.get_column_ref]
  rfl

theorem ne_ref_of_has_column (hname : data.has_column name = true) : name ≠ ref := by
  rintro rfl
  rw [AssetOutput.has_column, h.missing_ref] at hname
  cases hname

theorem full_iff (hname : name ≠ ref) : Full data' name ↔ Full data name := by
  rw [Full, Full, h.get_column hname, h.row_count]

theorem full_ref_iff : Full data' ref ↔ data.row_count ≤ values.length := by
  rw [Full, h.get_column_ref, h.row_count]
  simp

theorem value_at (row_idx : Nat) (hname : name ≠ ref) :
    value_at data' row_idx name = value_at data row_idx name := by
  rw [CheckValidator.value_at, CheckValidator.value_at, h.get_column hname]

theorem value_at_ref (row_idx : Nat) : CheckValidator.value_at data' row_idx ref =
    values.getD row_idx .null := by
  rw [CheckValidator.value_at, h.get_column_ref, Option.getD_some]

/-- Columns with other names have the same values. -/
theorem tuple_eq [F64 F] {columns : List String} (hcolumns : ref ∉ columns) (row_idx : Nat) :
    tuple data' columns row_idx = tuple data columns row_idx := by
  refine List.map_congr_left fun name hname => ?_
  rw [h.value_at row_idx]
  rintro rfl
  exact hcolumns hname

end Referenced

/-! ### Results that differ -/

theorem column_not_found_inj {name name' : String}
    (h : (.column_not_found name : ValidationResult F) = .column_not_found name') :
    name = name' := by
  have hmessage := Option.some.inj (congrArg ValidationResult.error_message h)
  have hlist := congrArg String.toList hmessage
  simp only [String.toList_append] at hlist
  have hname := List.append_cancel_left (List.append_cancel_right hlist)
  exact String.toList_injective hname

theorem result_ne_column_not_found (failures : Failures F) (total : Nat) (message name : String) :
    failures.result total message ≠ .column_not_found name := by
  intro h
  have hcount := congrArg ValidationResult.failed_count h
  rw [Failures.failed_count_result] at hcount
  cases hcount

/-! ### Checks of listed columns -/

section listed
variable {libraries : Libraries F} {ref : String} {values : List (Value F)}
  {data data' : AssetOutput F}

/-- Null values are added up to the first column that does not exist. -/
theorem add_columns_missing {before after : List String} {name : String}
    (hbefore : ∀ first ∈ before, data.has_column first = true)
    (hname : data.get_column name = none) (failures : Failures F) :
    (before ++ name :: after).foldlM (add_column data) failures =
      .error (.column_not_found name) := by
  induction before generalizing failures with
  | nil =>
    rw [List.nil_append, List.foldlM_cons, add_column, hname]
    rfl
  | cons first before ih =>
    rw [List.forall_mem_cons] at hbefore
    obtain ⟨found, hfound⟩ := Option.isSome_iff_exists.mp hbefore.1
    rw [List.cons_append, List.foldlM_cons, add_column, hfound]
    exact ih hbefore.2 _

theorem add_columns_congr {columns : List String}
    (h : ∀ name ∈ columns, data'.get_column name = data.get_column name)
    (failures : Failures F) :
    columns.foldlM (add_column data') failures = columns.foldlM (add_column data) failures := by
  induction columns generalizing failures with
  | nil => rfl
  | cons name columns ih =>
    rw [List.forall_mem_cons] at h
    have hstep : add_column data' failures name = add_column data failures name := by
      rw [add_column, add_column, h.1]
    rw [List.foldlM_cons, List.foldlM_cons, hstep]
    exact bind_congr fun found => ih h.2 found

/-- The result, where every column is there. -/
theorem validate_not_null_of_ok {columns : List String} {found : Failures F}
    (hfound : columns.foldlM (add_column data) .none = .ok found) :
    validate_not_null libraries data columns = found.result data.row_count
      (toString found.count ++ " null values found in columns " ++
        debug_list (columns.map libraries.debug)) := by
  simp only [validate_not_null]
  split
  case h_1 failures hrun =>
    cases hfound.symm.trans hrun
    rfl
  case h_2 result hrun => cases hfound.symm.trans hrun

/-- The result, where a column is missing. -/
theorem validate_not_null_of_error {columns : List String} {result : ValidationResult F}
    (herror : columns.foldlM (add_column data) .none = .error result) :
    validate_not_null libraries data columns = result := by
  simp only [validate_not_null]
  split
  case h_1 failures hrun => cases herror.symm.trans hrun
  case h_2 result' hrun =>
    cases herror.symm.trans hrun
    rfl

theorem validate_not_null_missing {columns : List String} {name : String}
    (h : first_missing_column data columns = some name) :
    validate_not_null libraries data columns = .column_not_found name := by
  obtain ⟨before, after, rfl, hbefore, hname⟩ := split_at_missing h
  exact validate_not_null_of_error (add_columns_missing hbefore hname .none)

theorem missing_of_validate_not_null {columns : List String} {name : String}
    (h : validate_not_null libraries data columns = .column_not_found name) :
    data.get_column name = none := by
  simp only [validate_not_null] at h
  have hnulls : (∃ found, columns.foldlM (add_column data) .none = .ok found ∧ _) ∨ _ :=
    nulls_of_columns columns .none
  rcases hnulls with ⟨found, hfound, -⟩ | ⟨name', -, hmissing, herror⟩
  · split at h
    case h_1 failures hrun => exact absurd h (result_ne_column_not_found _ _ _ _)
    case h_2 result hrun => cases hfound.symm.trans hrun
  · split at h
    case h_1 failures hrun => cases herror.symm.trans hrun
    case h_2 result hrun =>
      cases herror.symm.trans hrun
      rw [← column_not_found_inj h]
      exact hmissing

theorem validate_not_null_congr {columns : List String} (hrows : data'.row_count = data.row_count)
    (h : ∀ name ∈ columns, data'.get_column name = data.get_column name) :
    validate_not_null libraries data' columns = validate_not_null libraries data columns := by
  have hfold := add_columns_congr h .none
  cases hrun : columns.foldlM (add_column data) .none with
  | ok found =>
    rw [validate_not_null_of_ok hrun, validate_not_null_of_ok (hfold.trans hrun), hrows]
  | error result =>
    rw [validate_not_null_of_error hrun, validate_not_null_of_error (hfold.trans hrun)]

variable (h : Referenced ref values data data')
include h

/-- The same columns are missing, apart from the reference column. -/
theorem Referenced.first_missing_eq {columns : List String} {name : String}
    (hmissing : first_missing_column data columns = some name) (hname : name ≠ ref) :
    first_missing_column data' columns = some name := by
  obtain ⟨before, after, rfl, hbefore, hnone⟩ := split_at_missing hmissing
  apply List.find?_eq_some_iff_append.mpr
  refine ⟨?_, before, after, rfl, ?_⟩
  · rw [h.has_column hname, AssetOutput.has_column, hnone]
    rfl
  · intro first hfirst
    have hne := h.ne_ref_of_has_column (hbefore first hfirst)
    rw [h.has_column hne, hbefore first hfirst]
    rfl

theorem not_null_unaffected_iff (columns : List String) :
    validate_not_null libraries data' columns = validate_not_null libraries data columns ↔
      first_missing_column data columns ≠ some ref := by
  cases hmissing : first_missing_column data columns with
  | none =>
    refine iff_of_true (validate_not_null_congr h.row_count fun name hname => ?_) (by simp)
    exact h.get_column (h.ne_ref_of_has_column (all_exist hmissing name hname))
  | some name =>
    rw [validate_not_null_missing hmissing]
    constructor
    · intro hsame heq
      cases heq
      have hnone := missing_of_validate_not_null hsame
      rw [h.get_column_ref] at hnone
      cases hnone
    · intro hne
      have hname : name ≠ ref := fun heq => hne (congrArg some heq)
      exact validate_not_null_missing (h.first_missing_eq hmissing hname)

end listed

/-! ### Checks of the values of one column -/

section one_column
variable {ref column : String} {values : List (Value F)} {data data' : AssetOutput F}
  {fails : Nat → Value F → Option (Value F)} {message : Nat → String}
  (h : Referenced ref values data data')
include h

theorem column_unaffected_iff :
    validate_column data' column fails message = validate_column data column fails message ↔
      column ≠ ref := by
  constructor
  · rintro hsame rfl
    rw [validate_column, validate_column, h.get_column_ref, h.missing_ref] at hsame
    exact result_ne_column_not_found _ _ _ _ hsame
  · intro hne
    rw [validate_column, validate_column, h.get_column hne, h.row_count]

end one_column

/-! ### Checks that go through the rows -/

section rows
variable [F64 F] {libraries : Libraries F} {ref : String} {values : List (Value F)}
  {data data' : AssetOutput F} {columns : List String}

theorem missing_of_validate_unique {name : String} (hne : columns ≠ [])
    (h : validate_unique libraries data columns = some (.column_not_found name)) :
    data.get_column name = none := by
  rw [validate_unique, if_neg hne] at h
  rcases finish_eq_some h with ⟨failures, hresult, -⟩ | ⟨row, -, hkey⟩
  · exact absurd hresult.symm (result_ne_column_not_found _ _ _ _)
  · cases hparts : columns.mapM (key_part data row) with
    | none =>
      rw [hparts] at hkey
      cases hkey
    | some stopped =>
      rw [hparts] at hkey
      cases stopped with
      | ok parts => cases hkey
      | error e =>
        have he : e = .column_not_found name := by
          cases hkey
          rfl
        obtain ⟨name', -, hname'⟩ := of_mapM_eq_throw hparts
        obtain ⟨hnot_found, hnone⟩ := of_key_part_eq_throw hname'
        rw [he] at hnot_found
        rw [column_not_found_inj hnot_found]
        exact hnone

variable (h : Referenced ref values data data')
include h

theorem duplicate_keys_eq (hcolumns : ref ∉ columns) :
    duplicate_keys data' columns = duplicate_keys data columns := by
  have htuple : tuple data' columns = tuple data columns := funext (h.tuple_eq hcolumns)
  rw [duplicate_keys, duplicate_keys, htuple, h.row_count]

theorem unique_unaffected_iff (hdata : data.OnePerRow) :
    validate_unique libraries data' columns = validate_unique libraries data columns ↔
      data.row_count = 0 ∨ first_missing_column data columns ≠ some ref := by
  by_cases hne : columns = []
  · subst hne
    exact iff_of_true rfl (.inr (by simp [first_missing_column]))
  by_cases hrows : data.row_count = 0
  · rw [validate_unique_no_rows hne hrows,
      validate_unique_no_rows hne (h.row_count.trans hrows)]
    exact iff_of_true rfl (.inl hrows)
  rw [or_iff_right hrows]
  have hpos : 0 < data.row_count := by omega
  cases hmissing : first_missing_column data columns with
  | none =>
    have hexist := all_exist hmissing
    have hfull : ∀ name ∈ columns, Full data name := fun name hname =>
      hdata.full (hexist name hname)
    have hfull' : ∀ name ∈ columns, Full data' name := fun name hname =>
      (h.full_iff (h.ne_ref_of_has_column (hexist name hname))).mpr (hfull name hname)
    have hnot : ref ∉ columns := fun hmem => h.ne_ref_of_has_column (hexist ref hmem) rfl
    rw [validate_unique_full hne hfull, validate_unique_full hne hfull', duplicate_keys_eq h hnot,
      h.row_count]
    exact iff_of_true rfl (by simp)
  | some name =>
    obtain ⟨before, after, rfl, hbefore, hnone⟩ := split_at_missing hmissing
    have hfull : ∀ first ∈ before, Full data first := fun first hfirst =>
      hdata.full (hbefore first hfirst)
    rw [validate_unique_first_missing hfull hnone hpos]
    constructor
    · intro hsame heq
      cases heq
      have hmissing' := missing_of_validate_unique hne hsame
      rw [h.get_column_ref] at hmissing'
      cases hmissing'
    · intro hname
      have hname' : name ≠ ref := fun heq => hname (congrArg some heq)
      have hfull' : ∀ first ∈ before, Full data' first := fun first hfirst =>
        (h.full_iff (h.ne_ref_of_has_column (hbefore first hfirst))).mpr (hfull first hfirst)
      exact validate_unique_first_missing hfull' ((h.get_column hname').trans hnone)
        (h.row_count ▸ hpos)

end rows

/-! ### Checks of all rows -/

section duplicates
variable [F64 F] {ref : String} {values : List (Value F)} {data data' : AssetOutput F}
  {columns columns' : List String}

/-- The text of the value of a row in the reference column. -/
def ref_text (values : List (Value F)) (row_idx : Nat) : Json := (values.getD row_idx .null).to_text

/-- A row that repeats an earlier one does so with its value in the reference column, too; and there
    is one for each row. -/
def KeepsRepeats (data : AssetOutput F) (columns : List String) (values : List (Value F)) : Prop :=
  data.row_count ≤ values.length ∧
    ∀ row < data.row_count, ∀ earlier < row, tuple data columns earlier = tuple data columns row →
      ∃ first < row, tuple data columns first = tuple data columns row ∧
        ref_text values first = ref_text values row

/-- Rows that are not compared otherwise have different values in the reference column. -/
def NoRepeats (data : AssetOutput F) (values : List (Value F)) : Prop :=
  data.row_count ≤ values.length ∧
    ∀ row < data.row_count, ∀ earlier < row, ref_text values earlier ≠ ref_text values row

theorem tuple_eq_iff {row row' : Nat} :
    tuple data columns row = tuple data columns row' ↔ ∀ name ∈ columns,
      (value_at data row name).to_text = (value_at data row' name).to_text :=
  List.map_inj_left

theorem duplicate_rows_of_tuples (hnumbers : NumberTexts F) :
    duplicate_rows data columns = .found (fun row_idx =>
        .object [("reason", .string "duplicate row"), ("row", .of_nat row_idx)])
      (repeats (tuple data columns) [] (List.range data.row_count)) := by
  rw [duplicate_rows]
  exact congrArg _ (Repeats.repeats_congr fun row _ row' _ => pushed_tuple_eq_iff hnumbers row row')

omit [F64 F] in
/-- Without further duplicates the result is the same, and otherwise the count is another. -/
theorem result_eq_iff {α : Type} {sample : α → Value F} {failing failing' : List α} {total : Nat}
    {message : Nat → String} (hsub : failing'.Sublist failing) :
    (Failures.found sample failing').result total
        (message (Failures.found sample failing').count) =
      (Failures.found sample failing).result total
        (message (Failures.found sample failing).count) ↔
      failing' = failing := by
  constructor
  · intro hsame
    have hcount := congrArg ValidationResult.failed_count hsame
    rw [Failures.failed_count_result, Failures.failed_count_result, Failures.count_found,
      Failures.count_found, Option.some.injEq, Int.natCast_inj] at hcount
    exact hsub.eq_of_length hcount
  · rintro rfl
    rfl

variable (h : Referenced ref values data data')
include h

/-- The rows with the same values, also in the reference column. -/
theorem Referenced.tuple_eq_iff_and
    (hcolumns : ∀ name, name ∈ columns' ↔ name = ref ∨ name ∈ columns) (hnot : ref ∉ columns)
    (row row' : Nat) :
    tuple data' columns' row = tuple data' columns' row' ↔
      tuple data columns row = tuple data columns row' ∧
        ref_text values row = ref_text values row' := by
  have hne : ∀ name ∈ columns, name ≠ ref := by
    rintro name hname rfl
    exact hnot hname
  simp only [tuple_eq_iff, hcolumns, forall_eq_or_imp, h.value_at_ref]
  rw [and_comm]
  apply and_congr_left
  intro _
  refine forall₂_congr fun name hname => ?_
  rw [h.value_at row (hne name hname), h.value_at row' (hne name hname)]

theorem duplicates_unaffected_iff (hnumbers : NumberTexts F) (message : Nat → String)
    (hcolumns : ∀ name, name ∈ columns' ↔ name = ref ∨ name ∈ columns) (hnot : ref ∉ columns)
    (hlength : data.row_count ≤ values.length) :
    (duplicate_rows data' columns').result data'.row_count
        (message (duplicate_rows data' columns').count) =
      (duplicate_rows data columns).result data.row_count
        (message (duplicate_rows data columns).count) ↔ KeepsRepeats data columns values := by
  have hsame := h.tuple_eq_iff_and hcolumns hnot
  have hfiner : ∀ row ∈ List.range data.row_count, ∀ row' ∈ List.range data.row_count,
      tuple data' columns' row = tuple data' columns' row' →
        tuple data columns row = tuple data columns row' :=
    fun row _ row' _ heq => ((hsame row row').mp heq).1
  rw [duplicate_rows_of_tuples hnumbers, duplicate_rows_of_tuples hnumbers, h.row_count,
    result_eq_iff (Repeats.repeats_sublist hfiner), Repeats.repeats_eq_iff List.nodup_range hfiner,
    KeepsRepeats, and_iff_right hlength]
  constructor
  · intro hall row hrow earlier hearlier heq
    obtain ⟨-, first, hfirst, hkey⟩ := Repeats.mem_repeats_range.mp
      (hall row (Repeats.mem_repeats_range.mpr ⟨hrow, earlier, hearlier, heq⟩))
    exact ⟨first, hfirst, (hsame first row).mp hkey⟩
  · intro hkeeps row hrow
    obtain ⟨hlt, earlier, hearlier, heq⟩ := Repeats.mem_repeats_range.mp hrow
    obtain ⟨first, hfirst, hkey⟩ := hkeeps row hlt earlier hearlier heq
    exact Repeats.mem_repeats_range.mpr ⟨hlt, first, hfirst, (hsame first row).mpr hkey⟩

end duplicates

section no_duplicates
variable [F64 F] {ref : String} {values : List (Value F)} {data data' : AssetOutput F}

omit [F64 F] in
theorem result_eq_pass_iff {failures : Failures F} {total : Nat} {message : String} :
    failures.result total message = .pass total ↔ failures.count = 0 := by
  constructor
  · intro h
    apply Failures.passed_result.mp
    rw [h]
    rfl
  · intro h
    rw [Failures.result, if_pos h]

omit [F64 F] in
theorem mem_names_iff {name : String} :
    name ∈ data.columns.map Prod.fst ↔ data.has_column name = true := by
  rw [AssetOutput.has_column, AssetOutput.get_column, List.lookup_isSome_iff]
  simp

omit [F64 F] in
theorem filter_names : (data.columns.map Prod.fst).filter data.has_column =
    data.columns.map Prod.fst :=
  List.filter_eq_self.mpr fun _ hname => mem_names_iff.mp hname

variable (h : Referenced ref values data data')
include h

omit [F64 F] in
theorem Referenced.full_of_long (hdata : data.OnePerRow) (hlength : data.row_count ≤ values.length)
    {name : String} (hname : data'.has_column name = true) : Full data' name := by
  by_cases heq : name = ref
  · rw [heq]
    exact h.full_ref_iff.mpr hlength
  · rw [h.has_column heq] at hname
    exact (h.full_iff heq).mpr (hdata.full hname)

/-- The reference column is one of those that are compared. -/
theorem compared_unaffected_iff (hnumbers : NumberTexts F) (hdata : data.OnePerRow)
    {columns columns' : List String} (hne : columns ≠ []) (hmem : ref ∈ columns')
    (hcolumns : ∀ name, name ∈ columns'.filter data'.has_column ↔
      name = ref ∨ name ∈ columns.filter data.has_column) :
    validate_no_duplicate_rows data' (some columns') =
        validate_no_duplicate_rows data (some columns) ↔
      KeepsRepeats data (columns.filter data.has_column) values := by
  have hrows := validate_no_duplicate_rows_full hne fun name _ hname => hdata.full hname
  have hne' := List.ne_nil_of_mem hmem
  have hnot : ref ∉ columns.filter data.has_column := by
    intro hfilter
    exact h.ne_ref_of_has_column (List.mem_filter.mp hfilter).2 rfl
  by_cases hlength : data.row_count ≤ values.length
  · rw [hrows, validate_no_duplicate_rows_full hne' fun name _ hname =>
      h.full_of_long hdata hlength hname, Option.some.injEq]
    exact duplicates_unaffected_iff h hnumbers (fun count => toString count ++ _) hcolumns hnot
      hlength
  · -- the column is too short, and it is looked at for each row
    refine iff_of_false ?_ fun hkeeps => hlength hkeeps.1
    intro hsame
    rw [hrows] at hsame
    obtain ⟨-, hfull⟩ := of_validate_no_duplicate_rows hne' hsame
    rw [h.row_count] at hfull
    rcases hfull with hzero | hfull
    · omega
    · exact hlength (h.full_ref_iff.mp (hfull ref hmem h.has_column_ref))

theorem listed_rows_unaffected_iff (hnumbers : NumberTexts F) (hdata : data.OnePerRow)
    (columns : List String) :
    validate_no_duplicate_rows data' (some columns) =
        validate_no_duplicate_rows data (some columns) ↔
      ref ∉ columns ∨ KeepsRepeats data (columns.filter data.has_column) values := by
  by_cases hmem : ref ∈ columns
  · rw [or_iff_right (not_not.mpr hmem)]
    apply compared_unaffected_iff h hnumbers hdata (List.ne_nil_of_mem hmem) hmem
    intro name
    rw [List.mem_filter, List.mem_filter]
    by_cases hname : name = ref
    · subst hname
      exact iff_of_true ⟨hmem, h.has_column_ref⟩ (.inl rfl)
    · rw [h.has_column hname, or_iff_right hname]
  · refine iff_of_true ?_ (.inl hmem)
    by_cases hne : columns = []
    · subst hne
      rw [validate_no_duplicate_rows, validate_no_duplicate_rows, h.row_count]
      rfl
    have hne_ref : ∀ name ∈ columns, name ≠ ref := by
      rintro name hname rfl
      exact hmem hname
    have hfilter : columns.filter data'.has_column = columns.filter data.has_column :=
      List.filter_congr fun name hname => h.has_column (hne_ref name hname)
    have hnot : ref ∉ columns.filter data.has_column := fun hfilter =>
      hmem (List.mem_filter.mp hfilter).1
    have htuple : tuple data' (columns.filter data.has_column) =
        tuple data (columns.filter data.has_column) := funext (h.tuple_eq hnot)
    have hfull : ∀ name ∈ columns, data'.has_column name = true → Full data' name := by
      intro name hname hcolumn
      rw [h.has_column (hne_ref name hname)] at hcolumn
      exact (h.full_iff (hne_ref name hname)).mpr (hdata.full hcolumn)
    rw [validate_no_duplicate_rows_full hne hfull,
      validate_no_duplicate_rows_full hne fun name _ hname => hdata.full hname, hfilter,
      duplicate_rows, duplicate_rows, htuple, h.row_count]

/-- No other column: there is nothing to be compared without the reference column. -/
theorem only_reference_unaffected_iff (hnumbers : NumberTexts F) (hdata : data.OnePerRow)
    (hnil : data.columns = []) :
    validate_no_duplicate_rows data' none = validate_no_duplicate_rows data none ↔
      NoRepeats data values := by
  have hpass : validate_no_duplicate_rows data none = some (.pass data.row_count) := by
    rw [validate_no_duplicate_rows, hnil]
    rfl
  have hnames : data'.columns.map Prod.fst = [ref] := by
    have hperm := h.columns.map Prod.fst
    rw [hnil] at hperm
    exact List.perm_singleton.mp hperm
  have hnone : validate_no_duplicate_rows data' none =
      validate_no_duplicate_rows data' (some [ref]) := by
    rw [validate_no_duplicate_rows, validate_no_duplicate_rows, Option.getD_none, hnames,
      Option.getD_some]
  have hfilter : [ref].filter data'.has_column = [ref] :=
    List.filter_cons_of_pos h.has_column_ref
  rw [hpass, hnone]
  by_cases hlength : data.row_count ≤ values.length
  · have hsame : ∀ row row', tuple data' [ref] row = tuple data' [ref] row' ↔
        ref_text values row = ref_text values row' := by
      intro row row'
      rw [tuple_eq_iff]
      simp only [List.forall_mem_singleton, h.value_at_ref]
      rfl
    rw [validate_no_duplicate_rows_full (List.cons_ne_nil _ _) fun name _ hname =>
      h.full_of_long hdata hlength hname, hfilter, h.row_count, Option.some.injEq,
      result_eq_pass_iff, duplicate_rows_of_tuples hnumbers, Failures.count_found,
      List.length_eq_zero_iff, List.eq_nil_iff_forall_not_mem, h.row_count, NoRepeats,
      and_iff_right hlength]
    constructor
    · intro hall row hrow earlier hearlier heq
      exact hall row (Repeats.mem_repeats_range.mpr
        ⟨hrow, earlier, hearlier, (hsame earlier row).mpr heq⟩)
    · intro hall row hrow
      obtain ⟨hlt, earlier, hearlier, heq⟩ := Repeats.mem_repeats_range.mp hrow
      exact hall row hlt earlier hearlier ((hsame earlier row).mp heq)
  · refine iff_of_false ?_ fun hno => hlength hno.1
    intro hsome
    obtain ⟨-, hfull⟩ := of_validate_no_duplicate_rows (List.cons_ne_nil _ _) hsome
    rw [h.row_count] at hfull
    rcases hfull with hzero | hfull
    · omega
    · exact hlength (h.full_ref_iff.mp (hfull ref List.mem_cons_self h.has_column_ref))

theorem all_rows_unaffected_iff (hnumbers : NumberTexts F) (hdata : data.OnePerRow) :
    validate_no_duplicate_rows data' none = validate_no_duplicate_rows data none ↔
      (data.columns = [] ∧ NoRepeats data values) ∨
        (data.columns ≠ [] ∧ KeepsRepeats data (data.columns.map Prod.fst) values) := by
  by_cases hnil : data.columns = []
  · rw [only_reference_unaffected_iff h hnumbers hdata hnil]
    simp [hnil]
  · have hmem : ∀ name, name ∈ data'.columns.map Prod.fst ↔
        name = ref ∨ name ∈ data.columns.map Prod.fst := by
      intro name
      rw [(h.columns.map Prod.fst).mem_iff, List.map_cons, List.mem_cons]
    have hcolumns : ∀ name, name ∈ (data'.columns.map Prod.fst).filter data'.has_column ↔
        name = ref ∨ name ∈ (data.columns.map Prod.fst).filter data.has_column := by
      intro name
      rw [filter_names, filter_names]
      exact hmem name
    have hiff := compared_unaffected_iff h hnumbers hdata (by simpa using hnil)
      ((hmem ref).mpr (.inl rfl)) hcolumns
    rw [filter_names] at hiff
    simp only [hnil, false_and, not_false_eq_true, true_and, false_or, ne_eq]
    exact hiff

end no_duplicates

/-! ### The schema -/

section schema

/-- The text of a list, up to the order of its characters: each text with a comma and a blank. -/
theorem length_debug_list {texts : List String} (hne : texts ≠ []) :
    (debug_list texts).length = (texts.flatMap fun text => text.toList ++ [',', ' ']).length := by
  have hjoin : (", ".intercalate texts).toList.length + 2 =
      (texts.flatMap fun text => text.toList ++ [',', ' ']).length := by
    induction texts with
    | nil => exact absurd rfl hne
    | cons text texts ih =>
      by_cases hnil : texts = []
      · simp [hnil]
      · rw [String.intercalate_cons_of_ne_nil hnil, String.toList_append, String.toList_append,
          List.flatMap_cons, List.length_append, List.length_append, List.length_append, ← ih hnil]
        simp
        omega
  rw [← String.length_toList, debug_list, String.toList_append, String.toList_append,
    List.length_append, List.length_append, ← hjoin]
  simp
  omega

/-- The order of the texts does not change the length. -/
theorem length_debug_list_perm {texts texts' : List String} (h : texts.Perm texts') :
    (debug_list texts).length = (debug_list texts').length := by
  by_cases hne : texts = []
  · subst hne
    rw [h.symm.eq_nil]
  · have hne' : texts' ≠ [] := fun hnil => hne (hnil ▸ h).eq_nil
    rw [length_debug_list hne, length_debug_list hne']
    exact (h.flatMap_right _).length_eq

/-- One more text makes it longer. -/
theorem length_debug_list_lt {text : String} {texts texts' : List String} (hne : texts ≠ [])
    (h : texts'.Perm (text :: texts)) :
    (debug_list texts).length < (debug_list texts').length := by
  rw [length_debug_list_perm h, length_debug_list hne, length_debug_list (List.cons_ne_nil _ _),
    List.flatMap_cons, List.length_append]
  simp

/-- What `validate_schema_match` returns for the errors it has found. -/
def schema_result (errors : List String) (total : Nat) : ValidationResult F :=
  if errors = [] then .pass total
  else .failed errors.length total ("; ".intercalate errors)

theorem schema_result_inj {errors errors' : List String} {total : Nat}
    (h : (schema_result errors total : ValidationResult F) = schema_result errors' total) :
    errors.length = errors'.length ∧ "; ".intercalate errors = "; ".intercalate errors' := by
  unfold schema_result at h
  by_cases hnil : errors = []
  · by_cases hnil' : errors' = []
    · rw [hnil, hnil']
      exact ⟨rfl, rfl⟩
    · rw [if_pos hnil, if_neg hnil'] at h
      cases congrArg ValidationResult.passed h
  · by_cases hnil' : errors' = []
    · rw [if_neg hnil, if_pos hnil'] at h
      cases congrArg ValidationResult.passed h
    · rw [if_neg hnil, if_neg hnil'] at h
      have hcount := congrArg ValidationResult.failed_count h
      have hmessage := congrArg ValidationResult.error_message h
      exact ⟨Int.ofNat_inj.mp (Option.some.inj hcount), Option.some.inj hmessage⟩

/-- The errors of `validate_schema_match`. -/
def schema_errors (debug : String → String) (missing extra : List String)
    (allow_extra_columns : Bool) : List String :=
  (if missing = [] then []
    else ["Missing columns: " ++ debug_list (missing.map debug)]) ++
  (if allow_extra_columns || extra = [] then []
    else ["Unexpected columns: " ++ debug_list (extra.map debug)])

/-- A missing column more: another error, or a longer text. -/
theorem more_missing {debug : String → String} {missing missing' extra extra' : List String}
    {ref : String} {allow_extra_columns : Bool} {total : Nat}
    (hmissing : missing.Perm (ref :: missing')) (hextra : extra'.Perm extra) :
    (schema_result (schema_errors debug missing' extra' allow_extra_columns) total :
        ValidationResult F) ≠
      schema_result (schema_errors debug missing extra allow_extra_columns) total := by
  intro hsame
  obtain ⟨hlength, htext⟩ := schema_result_inj hsame
  have hne : missing ≠ [] := by
    rintro rfl
    exact absurd hmissing.symm.eq_nil (List.cons_ne_nil _ _)
  have hnil : extra' = [] ↔ extra = [] := ⟨fun h => (h ▸ hextra).symm.eq_nil,
    fun h => (h ▸ hextra).eq_nil⟩
  have hunexpected := length_debug_list_perm (hextra.map debug)
  by_cases hne' : missing' = []
  · -- the error is gone
    by_cases hextra_nil : extra = []
    · simp [schema_errors, hne, hne', hextra_nil, hnil.mpr hextra_nil] at hlength
    · cases allow_extra_columns <;>
        simp [schema_errors, hne, hne', hextra_nil, mt hnil.mp hextra_nil] at hlength
  · have hlonger := length_debug_list_lt (by simpa using hne') (hmissing.map debug)
    have hchars := congrArg String.length htext
    by_cases hextra_nil : extra = []
    · simp only [schema_errors, if_neg hne, if_neg hne', hextra_nil, hnil.mpr hextra_nil,
        decide_true, Bool.or_true, if_true, List.append_nil, String.intercalate_singleton,
        String.length_append] at hchars
      omega
    · cases allow_extra_columns with
      | true =>
        simp only [schema_errors, if_neg hne, if_neg hne', Bool.true_or, if_true, List.append_nil,
          String.intercalate_singleton, String.length_append] at hchars
        omega
      | false =>
        have hextra_nil' := mt hnil.mp hextra_nil
        simp only [schema_errors, if_neg hne, if_neg hne', decide_eq_false hextra_nil,
          decide_eq_false hextra_nil', Bool.or_false, Bool.false_eq_true, if_false,
          List.singleton_append, String.intercalate_cons_cons, String.intercalate_singleton,
          String.length_append] at hchars
        omega

/-- An unexpected column more: another error, or a longer text. -/
theorem more_unexpected {debug : String → String} {missing extra extra' : List String}
    {ref : String} {total : Nat} (hextra : extra'.Perm (ref :: extra)) :
    (schema_result (schema_errors debug missing extra' false) total : ValidationResult F) ≠
      schema_result (schema_errors debug missing extra false) total := by
  intro hsame
  obtain ⟨hlength, htext⟩ := schema_result_inj hsame
  have hne : extra' ≠ [] := by
    rintro rfl
    exact absurd hextra.symm.eq_nil (List.cons_ne_nil _ _)
  by_cases hne' : extra = []
  · simp [schema_errors, hne, hne'] at hlength
  · have hlonger := length_debug_list_lt (by simpa using hne') (hextra.map debug)
    have hchars := congrArg String.length htext
    by_cases hmissing : missing = []
    · simp only [schema_errors, if_pos hmissing, decide_eq_false hne, decide_eq_false hne',
        Bool.or_false, Bool.false_eq_true, if_false, List.nil_append, String.intercalate_singleton,
        String.length_append] at hchars
      omega
    · simp only [schema_errors, if_neg hmissing, decide_eq_false hne, decide_eq_false hne',
        Bool.or_false, Bool.false_eq_true, if_false, List.singleton_append,
        String.intercalate_cons_cons, String.intercalate_singleton, String.length_append] at hchars
      omega

end schema

section schema_match
variable {libraries : Libraries F} {ref : String} {values : List (Value F)}
  {data data' : AssetOutput F}

theorem validate_schema_match_eq (expected_columns : List String) (allow_extra_columns : Bool) :
    validate_schema_match libraries data expected_columns allow_extra_columns =
      schema_result (schema_errors libraries.debug
        ((libraries.hash.order expected_columns.dedup).filter
          (· ∉ libraries.hash.order (data.columns.map Prod.fst)))
        ((libraries.hash.order (data.columns.map Prod.fst)).filter
          (· ∉ libraries.hash.order expected_columns.dedup)) allow_extra_columns)
        data.row_count := rfl

theorem mem_order_names {name : String} :
    name ∈ libraries.hash.order (data.columns.map Prod.fst) ↔ data.has_column name = true := by
  rw [(libraries.hash.perm _).mem_iff, mem_names_iff]

theorem mem_order_expected {expected_columns : List String} {name : String} :
    name ∈ libraries.hash.order expected_columns.dedup ↔ name ∈ expected_columns := by
  rw [(libraries.hash.perm _).mem_iff, List.mem_dedup]

theorem nodup_order_expected (expected_columns : List String) :
    (libraries.hash.order expected_columns.dedup).Nodup :=
  (libraries.hash.perm _).nodup_iff.mpr (List.nodup_dedup _)

variable (h : Referenced ref values data data')
include h

/-- The actual columns, with the reference column. -/
theorem Referenced.order_perm : (libraries.hash.order (data'.columns.map Prod.fst)).Perm
    (ref :: libraries.hash.order (data.columns.map Prod.fst)) :=
  ((libraries.hash.perm _).trans (h.columns.map Prod.fst)).trans
    ((libraries.hash.perm _).symm.cons ref)

theorem schema_unaffected_iff (expected_columns : List String) (allow_extra_columns : Bool) :
    validate_schema_match libraries data' expected_columns allow_extra_columns =
        validate_schema_match libraries data expected_columns allow_extra_columns ↔
      allow_extra_columns = true ∧ ref ∉ expected_columns := by
  have hnodup : (libraries.hash.order expected_columns.dedup).Nodup :=
    nodup_order_expected expected_columns
  have hactual : (libraries.hash.order (data'.columns.map Prod.fst)).Perm _ := h.order_perm
  have hnot : ref ∉ libraries.hash.order (data.columns.map Prod.fst) := by
    rw [mem_order_names]
    intro hcolumn
    exact h.ne_ref_of_has_column hcolumn rfl
  rw [validate_schema_match_eq, validate_schema_match_eq, h.row_count]
  generalize libraries.hash.order (data.columns.map Prod.fst) = actual at hactual hnot
  generalize libraries.hash.order (data'.columns.map Prod.fst) = actual' at hactual
  have hmem : ref ∈ libraries.hash.order expected_columns.dedup ↔ ref ∈ expected_columns :=
    mem_order_expected
  rw [← hmem]
  generalize libraries.hash.order expected_columns.dedup = expected at hnodup
  have hextra := hactual.filter fun name => decide (name ∉ expected)
  by_cases hexpected : ref ∈ expected
  · -- it is missing only without the reference column
    refine iff_of_false ?_ fun hand => hand.2 hexpected
    rw [List.filter_cons_of_neg (by simpa using hexpected)] at hextra
    have hmissing : (expected.filter fun name => decide (name ∉ actual)).Perm
        (ref :: expected.filter fun name => decide (name ∉ actual')) := by
      have hnodup' : (ref :: expected.filter fun name => decide (name ∉ actual')).Nodup := by
        rw [List.nodup_cons]
        exact ⟨by simp [hactual.mem_iff], hnodup.filter _⟩
      rw [List.perm_ext_iff_of_nodup (hnodup.filter _) hnodup']
      intro name
      simp only [List.mem_filter, List.mem_cons, hactual.mem_iff, decide_eq_true_eq, not_or]
      constructor
      · intro ⟨hname, hmissing⟩
        by_cases heq : name = ref
        · exact .inl heq
        · exact .inr ⟨hname, heq, hmissing⟩
      · rintro (rfl | ⟨hname, -, hmissing⟩)
        · exact ⟨hexpected, hnot⟩
        · exact ⟨hname, hmissing⟩
    exact more_missing hmissing hextra
  · have hmissing : (expected.filter fun name => decide (name ∉ actual')) =
        expected.filter fun name => decide (name ∉ actual) := by
      apply List.filter_congr
      intro name hname
      have hne : name ≠ ref := by
        rintro rfl
        exact hexpected hname
      simp [hactual.mem_iff, hne]
    rw [hmissing]
    cases allow_extra_columns with
    | true =>
      refine iff_of_true ?_ ⟨rfl, hexpected⟩
      simp [schema_errors]
    | false =>
      refine iff_of_false ?_ (by simp)
      rw [List.filter_cons_of_pos (by simpa using hexpected)] at hextra
      exact more_unexpected hextra

end schema_match

/-! ### All checks -/

section checks
variable [F64 F] {libraries : Libraries F} {ref : String} {values : List (Value F)}
  {data data' : AssetOutput F}

/-- What a check must be, for the reference column to make no difference to it. -/
def Unaffected (libraries : Libraries F) (data : AssetOutput F) (ref : String)
    (values : List (Value F)) : CheckType F → Prop
  | .NotNull columns => first_missing_column data columns ≠ some ref
  | .Unique columns => data.row_count = 0 ∨ first_missing_column data columns ≠ some ref
  | .InRange column _ _ => column ≠ ref
  | .Regex column pattern => column ≠ ref ∨ ∃ e, libraries.regex pattern = .error e
  | .AcceptedValues column _ => column ≠ ref
  | .NoDuplicateRows none =>
    (data.columns = [] ∧ NoRepeats data values) ∨
      (data.columns ≠ [] ∧ KeepsRepeats data (data.columns.map Prod.fst) values)
  | .NoDuplicateRows (some columns) =>
    ref ∉ columns ∨ KeepsRepeats data (columns.filter data.has_column) values
  | .SchemaMatch expected_columns allow_extra_columns =>
    allow_extra_columns = true ∧ ref ∉ expected_columns
  | _ => True

theorem execute_check_isSome (hdata : data.OnePerRow) (check_type : CheckType F) :
    (execute_check libraries data check_type).isSome = true := by
  cases check_type with
  | Unique columns => exact validate_unique_isSome hdata libraries columns
  | NoDuplicateRows columns => exact validate_no_duplicate_rows_isSome hdata columns
  | _ => rfl

theorem execute_unaffected_iff (hnumbers : NumberTexts F) (hdata : data.OnePerRow)
    (h : Referenced ref values data data') {check_type : CheckType F}
    (hother : ∀ column reference_table reference_column,
      check_type ≠ .ReferentialIntegrity column reference_table reference_column) :
    execute_check libraries data' check_type = execute_check libraries data check_type ↔
      Unaffected libraries data ref values check_type := by
  cases check_type with
  | NotNull columns => exact Option.some_inj.trans (not_null_unaffected_iff h columns)
  | Unique columns => exact unique_unaffected_iff h hdata
  | InRange column min max => exact Option.some_inj.trans (column_unaffected_iff h)
  | Regex column pattern =>
    simp only [execute_check, Option.some.injEq, validate_regex, Unaffected]
    cases hregex : libraries.regex pattern with
    | error e => exact iff_of_true rfl (.inr ⟨e, rfl⟩)
    | ok is_match =>
      rw [or_iff_left (by simp)]
      exact column_unaffected_iff h
  | RowCount min max =>
    rw [execute_check, execute_check, validate_row_count, validate_row_count, h.row_count]
    exact iff_of_true rfl trivial
  | AcceptedValues column accepted => exact Option.some_inj.trans (column_unaffected_iff h)
  | NoDuplicateRows columns =>
    cases columns with
    | none => exact all_rows_unaffected_iff h hnumbers hdata
    | some columns => exact listed_rows_unaffected_iff h hnumbers hdata columns
  | Freshness timestamp_column max_age_seconds => exact iff_of_true rfl trivial
  | ReferentialIntegrity column reference_table reference_column =>
    exact absurd rfl (hother column reference_table reference_column)
  | SchemaMatch expected_columns allow_extra_columns =>
    exact Option.some_inj.trans
      (schema_unaffected_iff h expected_columns allow_extra_columns)
  | Custom name description => exact iff_of_true rfl trivial

/-- With the reference column and without it the check returns, and it returns the same. -/
theorem reference_column_ignored_iff (hnumbers : NumberTexts F) (libraries : Libraries F)
    (hdata : data.OnePerRow) (h : Referenced ref values data data') (check_type : Value F)
    (hother : ∀ column reference_table reference_column, CheckType.deserialize check_type ≠
      some (.ReferentialIntegrity column reference_table reference_column)) :
    ((validate_check libraries data' check_type).isSome = true ∧
      (validate_check libraries data check_type).isSome = true ∧
      validate_check libraries data' check_type = validate_check libraries data check_type) ↔
      ∀ parsed, CheckType.deserialize check_type = some parsed →
        Unaffected libraries data ref values parsed := by
  have hsome : (validate_check libraries data check_type).isSome = true := by
    unfold validate_check
    split
    · exact execute_check_isSome hdata _
    · rfl
  have hboth : ((validate_check libraries data' check_type).isSome = true ∧
      (validate_check libraries data check_type).isSome = true ∧
      validate_check libraries data' check_type = validate_check libraries data check_type) ↔
      validate_check libraries data' check_type = validate_check libraries data check_type := by
    constructor
    · intro hand
      exact hand.2.2
    · intro hsame
      exact ⟨hsame ▸ hsome, hsome, hsame⟩
  rw [hboth]
  cases hparsed : CheckType.deserialize check_type with
  | none =>
    refine iff_of_true ?_ (by simp)
    rw [validate_check, validate_check, hparsed]
  | some parsed =>
    have hkind : ∀ column reference_table reference_column,
        parsed ≠ .ReferentialIntegrity column reference_table reference_column := by
      rintro column reference_table reference_column rfl
      exact hother column reference_table reference_column hparsed
    rw [validate_check, validate_check, hparsed]
    simp only [Option.some.injEq, forall_eq']
    exact execute_unaffected_iff hnumbers hdata h hkind

end checks

/-! ### Two rows and one reference -/

/-- Two rows with one field. -/
def two_rows : AssetOutput Int :=
  .from_rows exact_libraries.hash [.object [("id", .number (.int 1))],
    .object [("id", .number (.int 2))]]

/-- The same with a reference table of one row. -/
def two_rows_referenced : AssetOutput Int where
  columns := [(ref_col_key "users" "id", [.number (.int 1)]),
    ("id", [.number (.int 1), .number (.int 2)])]
  row_count := 2
  nodup := by decide

theorem referenced_two_rows : Referenced (ref_col_key "users" "id") [.number (.int 1)] two_rows
    two_rows_referenced where
  named := ⟨"users", "id", rfl⟩
  columns := .refl _
  row_count := rfl

/-- A check of the other column, with the reference column and without it. -/
theorem reference_column_ignored_unique :
    validate_check exact_libraries two_rows_referenced
        (.object [("columns", .array [.string "id"]), ("type", .string "unique")]) =
      validate_check exact_libraries two_rows
        (.object [("columns", .array [.string "id"]), ("type", .string "unique")]) := by
  have hparsed : CheckType.deserialize (F := Int)
      (.object [("columns", .array [.string "id"]), ("type", .string "unique")]) =
        some (.Unique ["id"]) := rfl
  refine ((reference_column_ignored_iff numbers_exact exact_libraries
    (one_per_row_from_rows _ _) referenced_two_rows _ ?_).mpr ?_).2.2
  · intro column reference_table reference_column h
    rw [hparsed] at h
    cases h
  · intro parsed h
    rw [hparsed] at h
    cases h
    exact .inr (by decide)

/-- The rows are compared by all columns, and the reference column ends after the first row. -/
theorem reference_column_panics :
    Referenced (ref_col_key "users" "id") [.number (.int 1)] two_rows two_rows_referenced ∧
    (validate_check exact_libraries two_rows
      (.object [("type", .string "no_duplicate_rows")])).isSome = true ∧
    validate_check exact_libraries two_rows_referenced
      (.object [("type", .string "no_duplicate_rows")]) = none := by
  refine ⟨referenced_two_rows, ?_, ?_⟩
  · decide +kernel
  · apply Option.isNone_iff_eq_none.mp
    decide +kernel

end Servo.CheckValidator
