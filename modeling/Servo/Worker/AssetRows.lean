import Servo.Worker.RowKeys

/-! # Rows into Columns

    `from_rows` goes through the rows twice: it collects the names of the
    fields, and then it pushes a value for each row onto each column. The
    columns have the same length throughout, so no index that a validator
    takes of a row is out of bounds.
-/

namespace Servo.CheckValidator

variable {F : Type}

/-! ### The two passes -/

/-- `columns.get_mut(name).unwrap().push(value)`. -/
def push_onto (columns : List (String × List (Value F))) (name : String) (value : Value F) :
    Option (List (String × List (Value F))) :=
  if (columns.lookup name).isSome then
    some (columns.map fun column =>
      if column.1 = name then (column.1, column.2 ++ [value]) else column)
  else none

/-- One row of the second pass: a value for each column, `Null` if there is none. -/
def push_row (all_columns : List String) (columns : List (String × List (Value F))) :
    Value F → Option (List (String × List (Value F)))
  | .object obj => all_columns.foldlM (fun columns col_name =>
      push_onto columns col_name ((obj.lookup col_name).getD .null)) columns
  | _ => all_columns.foldlM (fun columns col_name => push_onto columns col_name .null) columns

/-- `from_rows`, pass by pass: the columns and the number of rows, unless it panics. -/
def from_rows_passes (hash : HashOrder String) (rows : List (Value F)) :
    Option (List (String × List (Value F)) × Nat) :=
  if rows.length = 0 then
    let empty : AssetOutput F := .empty
    some (empty.columns, empty.row_count)
  else do
    -- First pass: collect all column names from all rows
    let all_columns := hash.order (rows.flatMap AssetOutput.keys).dedup
    -- Second pass: add values for each row
    let columns ← rows.foldlM (push_row all_columns) (all_columns.map fun name => (name, []))
    return (columns, rows.length)

/-! ### The columns after each push -/

section passes
variable {all_columns : List String}

theorem lookup_isSome_of_mem {name : String} {f : String → List (Value F)}
    (h : name ∈ all_columns) :
    ((all_columns.map fun name => (name, f name)).lookup name).isSome = true := by
  induction all_columns with
  | nil => cases h
  | cons first rest ih =>
    rw [List.map_cons, List.lookup_cons]
    by_cases hname : name = first
    · rw [hname, beq_self_eq_true]
      rfl
    · rw [beq_false_of_ne hname]
      exact ih ((List.mem_cons.mp h).resolve_left hname)

theorem push_onto_eq {name : String} {f : String → List (Value F)} (h : name ∈ all_columns)
    (value : Value F) :
    push_onto (all_columns.map fun name => (name, f name)) name value =
      some (all_columns.map fun n => (n, if n = name then f n ++ [value] else f n)) := by
  rw [push_onto, if_pos (lookup_isSome_of_mem h), List.map_map]
  refine congrArg some (List.map_congr_left fun n _ => ?_)
  by_cases hn : n = name <;> simp [hn]

/-- A row gives a value to each column: those that are still to come have been left as they were. -/
theorem push_values {names : List String} (hnodup : names.Nodup)
    (hmem : ∀ name ∈ names, name ∈ all_columns) (values : String → Value F)
    (f : String → List (Value F)) :
    names.foldlM (fun columns col_name => push_onto columns col_name (values col_name))
        (all_columns.map fun name => (name, f name)) =
      some (all_columns.map fun n => (n, if n ∈ names then f n ++ [values n] else f n)) := by
  induction names generalizing f with
  | nil => simp
  | cons name names ih =>
    rw [List.nodup_cons] at hnodup
    rw [List.forall_mem_cons] at hmem
    have hrest := ih hnodup.2 hmem.2 fun n => if n = name then f n ++ [values name] else f n
    rw [List.foldlM_cons, push_onto_eq hmem.1]
    refine Eq.trans hrest (congrArg some (List.map_congr_left fun n _ => ?_))
    by_cases hn : n = name
    · subst hn
      simp [hnodup.1]
    · simp [hn]

theorem push_row_eq (hnodup : all_columns.Nodup) (f : String → List (Value F)) (row : Value F) :
    push_row all_columns (all_columns.map fun name => (name, f name)) row =
      some (all_columns.map fun name => (name, f name ++ [AssetOutput.cell name row])) := by
  have hpush := push_values hnodup (fun _ h => h) (fun name => AssetOutput.cell name row) f
  have hall : (all_columns.map fun n =>
      (n, if n ∈ all_columns then f n ++ [AssetOutput.cell n row] else f n)) =
        all_columns.map fun name => (name, f name ++ [AssetOutput.cell name row]) :=
    List.map_congr_left fun n hn => by rw [if_pos hn]
  rw [hall] at hpush
  cases row with
  | object obj => exact hpush
  | _ => exact hpush

/-- Every column has a value for each row that has been read. -/
theorem push_rows_eq (hnodup : all_columns.Nodup) (rows : List (Value F))
    (f : String → List (Value F)) :
    rows.foldlM (push_row all_columns) (all_columns.map fun name => (name, f name)) =
      some (all_columns.map fun name => (name, f name ++ rows.map (AssetOutput.cell name))) := by
  induction rows generalizing f with
  | nil => simp
  | cons row rows ih =>
    rw [List.foldlM_cons, push_row_eq hnodup]
    refine Eq.trans (ih _) (congrArg some (List.map_congr_left fun name _ => ?_))
    rw [List.map_cons, List.append_assoc, List.singleton_append]

end passes

theorem from_rows_passes_eq (hash : HashOrder String) (rows : List (Value F)) :
    from_rows_passes hash rows = some ((AssetOutput.from_rows hash rows).columns,
      (AssetOutput.from_rows hash rows).row_count) := by
  unfold from_rows_passes
  by_cases hrows : rows.length = 0
  · obtain rfl := List.length_eq_zero_iff.mp hrows
    have hnil : hash.order [] = [] := (hash.perm []).eq_nil
    have hcolumns : (AssetOutput.from_rows hash ([] : List (Value F))).columns = [] := by
      show (hash.order []).map _ = []
      rw [hnil]
      rfl
    rw [if_pos hrows, hcolumns]
    rfl
  · have hnodup : (hash.order (rows.flatMap AssetOutput.keys).dedup).Nodup :=
      (hash.perm _).nodup_iff.mpr (List.nodup_dedup _)
    rw [if_neg hrows]
    dsimp only
    rw [push_rows_eq hnodup]
    rfl

/-! ### No index is out of bounds -/

/-- Each column has one value for each row. -/
def AssetOutput.OnePerRow (data : AssetOutput F) : Prop :=
  ∀ name values, data.get_column name = some values → values.length = data.row_count

theorem one_per_row_from_rows (hash : HashOrder String) (rows : List (Value F)) :
    (AssetOutput.from_rows hash rows).OnePerRow := by
  intro name values h
  rw [get_column_of_rows] at h
  split at h
  · cases h
    exact List.length_map _
  · cases h

theorem has_column_from_rows {hash : HashOrder String} {rows : List (Value F)} {name : String} :
    (AssetOutput.from_rows hash rows).has_column name = true ↔
      ∃ row ∈ rows, name ∈ AssetOutput.keys row := by
  rw [AssetOutput.has_column, get_column_of_rows, ← List.mem_flatMap]
  split
  · next h => exact iff_of_true rfl h
  · next h => exact iff_of_false (by simp) h

section missing
variable {data : AssetOutput F} {columns : List String}

/-- The first of the columns that does not exist. -/
def first_missing_column (data : AssetOutput F) (columns : List String) : Option String :=
  columns.find? fun name => !data.has_column name

theorem all_exist {columns : List String} (h : first_missing_column data columns = none) :
    ∀ name ∈ columns, data.has_column name = true := by
  intro name hname
  simpa using List.find?_eq_none.mp h name hname

theorem split_at_missing {columns : List String} {name : String}
    (h : first_missing_column data columns = some name) :
    ∃ before after, columns = before ++ name :: after ∧
      (∀ first ∈ before, data.has_column first = true) ∧ data.get_column name = none := by
  obtain ⟨hname, before, after, hcolumns, hbefore⟩ := List.find?_eq_some_iff_append.mp h
  refine ⟨before, after, hcolumns, ?_, ?_⟩
  · intro first hfirst
    simpa using hbefore first hfirst
  · simpa [AssetOutput.has_column] using hname

end missing

section bounds
variable {data : AssetOutput F} (hdata : data.OnePerRow)
include hdata

theorem AssetOutput.OnePerRow.full {name : String} (h : data.has_column name = true) :
    Full data name := by
  obtain ⟨values, hvalues⟩ := Option.isSome_iff_exists.mp h
  exact ⟨values, hvalues, (hdata name values hvalues).ge⟩

/-- The columns up to the first one that is missing. -/
theorem first_missing (columns : List String) :
    (∀ name ∈ columns, Full data name) ∨ ∃ before name after, columns = before ++ name :: after ∧
      (∀ name ∈ before, Full data name) ∧ data.get_column name = none := by
  cases hmissing : first_missing_column data columns with
  | none => exact .inl fun name hname => hdata.full (all_exist hmissing name hname)
  | some name =>
    obtain ⟨before, after, hcolumns, hbefore, hname⟩ := split_at_missing hmissing
    right
    refine ⟨before, name, after, hcolumns, ?_, hname⟩
    intro first hfirst
    exact hdata.full (hbefore first hfirst)

variable [F64 F] (libraries : Libraries F)

theorem validate_unique_isSome (columns : List String) :
    (validate_unique libraries data columns).isSome = true := by
  by_cases hne : columns = []
  · rw [validate_unique, if_pos hne]
    rfl
  · by_cases hrows : data.row_count = 0
    · rw [validate_unique_no_rows hne hrows]
      rfl
    · rcases first_missing hdata columns with hfull | ⟨before, name, after, rfl, hbefore, hname⟩
      · rw [validate_unique_full hne hfull]
        rfl
      · rw [validate_unique_first_missing hbefore hname (by omega)]
        rfl

theorem validate_no_duplicate_rows_isSome (columns : Option (List String)) :
    (validate_no_duplicate_rows data columns).isSome = true := by
  have hsome : ∀ columns, (validate_no_duplicate_rows data (some columns)).isSome = true := by
    intro columns
    by_cases hne : columns = []
    · rw [validate_no_duplicate_rows, Option.getD_some, if_pos hne]
      rfl
    · rw [validate_no_duplicate_rows_full hne fun name _ h => hdata.full h]
      rfl
  cases columns with
  | none => exact hsome (data.columns.map Prod.fst)
  | some columns => exact hsome columns

end bounds

/-- The columns of any rows, and what that means for the validators that go through the rows. -/
theorem from_rows_columns [F64 F] (libraries : Libraries F) (hash : HashOrder String)
    (rows : List (Value F)) :
    from_rows_passes hash rows = some ((AssetOutput.from_rows hash rows).columns,
      (AssetOutput.from_rows hash rows).row_count) ∧
    (AssetOutput.from_rows hash rows).row_count = rows.length ∧
    (∀ name, (AssetOutput.from_rows hash rows).has_column name = true ↔
      ∃ row ∈ rows, name ∈ AssetOutput.keys row) ∧
    (∀ name values, (AssetOutput.from_rows hash rows).get_column name = some values →
      values.length = rows.length ∧ ∀ row_idx (hrow : row_idx < rows.length),
        index values row_idx = pure (AssetOutput.cell name rows[row_idx])) ∧
    (∀ columns, (validate_unique libraries (AssetOutput.from_rows hash rows) columns).isSome) ∧
    ∀ columns, (validate_no_duplicate_rows (AssetOutput.from_rows hash rows) columns).isSome := by
  have hdata := one_per_row_from_rows hash rows
  refine ⟨from_rows_passes_eq hash rows, rfl, fun name => has_column_from_rows, ?_,
    validate_unique_isSome hdata libraries, validate_no_duplicate_rows_isSome hdata⟩
  intro name values hcolumn
  refine ⟨hdata name values hcolumn, ?_⟩
  intro row_idx hrow
  rw [get_column_of_rows] at hcolumn
  split at hcolumn
  · cases hcolumn
    rw [index, List.getElem?_map, List.getElem?_eq_getElem hrow]
    rfl
  · cases hcolumn

end Servo.CheckValidator
