import Servo.Python.Checks
import Servo.Worker.ValidatorVerdicts

/-! # A Table Row by Row

    The worker makes columns of the rows of a table again. They are the columns
    of the table, unless there are no rows: then no column is known.
-/

namespace Servo.Python

open CheckValidator (AssetOutput Libraries get_column_from_rows)

variable {F : Type}

/-! ### Columns in another order -/

theorem lookup_eq_some_iff_mem {β : Type} {columns : List (String × β)}
    (hnodup : (columns.map Prod.fst).Nodup) {name : String} {values : β} :
    columns.lookup name = some values ↔ (name, values) ∈ columns := by
  induction columns with
  | nil => exact iff_of_false (by rintro ⟨⟩) (by rintro ⟨⟩)
  | cons column columns ih =>
    obtain ⟨first, found⟩ := column
    rw [List.map_cons, List.nodup_cons] at hnodup
    rw [List.lookup_cons, List.mem_cons, Prod.mk.injEq]
    by_cases hname : name = first
    · subst hname
      have hnot : (name, values) ∉ columns := fun hmem =>
        hnodup.1 (List.mem_map.mpr ⟨(name, values), hmem, rfl⟩)
      rw [beq_self_eq_true, or_iff_left hnot]
      show some found = some values ↔ _
      rw [Option.some.injEq, and_iff_right rfl, eq_comm]
    · rw [beq_false_of_ne hname, or_iff_right fun h => hname h.1]
      exact ih hnodup.2

/-- A dict has the same values under the same names, whatever the order. -/
theorem lookup_of_perm {β : Type} {columns columns' : List (String × β)}
    (hperm : columns'.Perm columns) (hnodup : (columns.map Prod.fst).Nodup) (name : String) :
    columns'.lookup name = columns.lookup name := by
  have hnodup' : (columns'.map Prod.fst).Nodup := ((hperm.map _).nodup_iff).mpr hnodup
  refine Option.ext fun values => ?_
  rw [lookup_eq_some_iff_mem hnodup', lookup_eq_some_iff_mem hnodup, hperm.mem_iff]

theorem lookup_map_snd {β γ : Type} (f : β → γ) (columns : List (String × β)) (name : String) :
    (columns.map fun column => (column.1, f column.2)).lookup name =
      (columns.lookup name).map f := by
  induction columns with
  | nil => rfl
  | cons column columns ih =>
    obtain ⟨first, found⟩ := column
    rw [List.map_cons, List.lookup_cons, List.lookup_cons]
    cases name == first with
    | true => rfl
    | false => exact ih

namespace Table
variable [F64 F] (table : Table F)

/-- The columns in the order of their names. -/
def sorted : List (String × List (Value F)) :=
  table.columns.mergeSort fun c c' => decide (c.1 ≤ c'.1)

theorem perm_sorted : table.sorted.Perm table.columns := List.mergeSort_perm _ _

theorem keys_row (i : Nat) : AssetOutput.keys (table.row i) = table.sorted.map Prod.fst := by
  show List.map Prod.fst (List.map _ table.sorted) = _
  rw [List.map_map]
  rfl

variable {table} {column : String}

theorem length_of_lookup {values : List (Value F)}
    (h : table.columns.lookup column = some values) : values.length = row_count table.columns :=
  table.length_eq _ ((lookup_eq_some_iff_mem table.nodup).mp h)

theorem ne_nil_of_rows {values : List (Value F)}
    (h : table.columns.lookup column = some values) (hrows : row_count table.columns ≠ 0) :
    values ≠ [] := by
  rintro rfl
  exact hrows (length_of_lookup h).symm

theorem scalar_of_lookup {values : List (Value F)}
    (h : table.columns.lookup column = some values) : ∀ value ∈ values, JsonScalar value :=
  table.scalar _ ((lookup_eq_some_iff_mem table.nodup).mp h)

/-- The fields under one name, row after row, are the column. -/
theorem cells_of_rows {values : List (Value F)}
    (h : table.columns.lookup column = some values) :
    table.rows.map (AssetOutput.cell column) = values := by
  have hcell : ∀ i, AssetOutput.cell column (table.row i) = values.getD i .null := by
    intro i
    show ((List.map _ table.sorted).lookup column).getD Value.null = _
    rw [lookup_map_snd (fun values => values.getD i Value.null) table.sorted column,
      lookup_of_perm table.perm_sorted table.nodup, h]
    rfl
  have hlength := length_of_lookup h
  rw [rows, List.map_map]
  refine List.ext_getElem (by simp [hlength]) fun i hi hi' => ?_
  rw [List.getElem_map, Function.comp_apply, hcell, List.getElem_range,
    List.getD_eq_getElem?_getD, List.getElem?_eq_getElem hi', Option.getD_some]

theorem mem_names_iff :
    column ∈ table.sorted.map Prod.fst ↔ ∃ values, table.columns.lookup column = some values := by
  rw [(table.perm_sorted.map _).mem_iff, List.mem_map]
  constructor
  · rintro ⟨⟨name, values⟩, hmem, rfl⟩
    exact ⟨values, (lookup_eq_some_iff_mem table.nodup).mpr hmem⟩
  · intro ⟨values, hlookup⟩
    exact ⟨(column, values), (lookup_eq_some_iff_mem table.nodup).mp hlookup, rfl⟩

theorem rows_ne_nil_iff : table.rows ≠ [] ↔ row_count table.columns ≠ 0 := by
  rw [rows, Ne, List.map_eq_nil_iff, List.range_eq_nil]

variable (table) in
/-- What the worker makes of the rows. -/
def output (hash : HashOrder String) : AssetOutput F := AssetOutput.from_rows hash table.rows

theorem row_count_output (hash : HashOrder String) :
    (table.output hash).row_count = row_count table.columns := by
  show table.rows.length = _
  rw [rows, List.length_map, List.length_range]

/-- **The columns of the worker**: those of the table, if there are rows. -/
theorem get_column_output (hash : HashOrder String) :
    (table.output hash).get_column column =
      if row_count table.columns = 0 then none else table.columns.lookup column := by
  have hkeys : ∀ row ∈ table.rows, AssetOutput.keys row = table.sorted.map Prod.fst := by
    intro row hrow
    obtain ⟨i, -, rfl⟩ := List.mem_map.mp hrow
    exact keys_row table i
  rw [output, get_column_from_rows hkeys]
  by_cases hrows : row_count table.columns = 0
  · rw [if_pos hrows]
    exact if_neg fun h => rows_ne_nil_iff.mp h.1 hrows
  · rw [if_neg hrows]
    cases hlookup : table.columns.lookup column with
    | none =>
      refine if_neg fun h => ?_
      obtain ⟨values, hvalues⟩ := mem_names_iff.mp h.2
      rw [hlookup] at hvalues
      cases hvalues
    | some values =>
      rw [if_pos ⟨rows_ne_nil_iff.mpr hrows, mem_names_iff.mpr ⟨values, hlookup⟩⟩,
        cells_of_rows hlookup]

theorem get_column_output_eq_some_iff {hash : HashOrder String} {values : List (Value F)} :
    (table.output hash).get_column column = some values ↔
      row_count table.columns ≠ 0 ∧ table.columns.lookup column = some values := by
  rw [get_column_output]
  by_cases hrows : row_count table.columns = 0 <;> simp [hrows]

end Table

end Servo.Python
