import Servo.Python.VerdictAgreement
import Servo.Worker.AssetRows

/-! # Distinct Tuples

    `unique` counts the rows that have the values of an earlier row. The key of
    a row is the text of its values with separators, and from it the texts of
    the values can be told again. `no_duplicate_rows` counts the same rows, as
    long as all columns exist: it passes over a column that does not, which is
    an error for `unique`.
-/

namespace Servo.CheckValidator

open Python (exact_libraries)
open Repeats (repeats repeats_eq_nil_iff length_repeats)

variable {F : Type} [F64 F] {libraries : Libraries F} {data : AssetOutput F}
  {columns : List String}

/-! ### Counting tuples -/

/-- The number of different tuples over all rows. -/
def distinct_tuples (data : AssetOutput F) (columns : List String) : Nat :=
  ((List.range data.row_count).map (tuple data columns)).dedup.length

theorem repeats_add_distinct :
    (repeats (tuple data columns) [] (List.range data.row_count)).length +
      distinct_tuples data columns = data.row_count := by
  have h := length_repeats (k := tuple data columns) (List.range data.row_count)
  rwa [List.length_range] at h

/-- No two rows have the same tuple. -/
theorem repeats_tuple_eq_nil_iff :
    repeats (tuple data columns) [] (List.range data.row_count) = [] ↔
      ∀ row < data.row_count, ∀ row' < data.row_count,
        tuple data columns row = tuple data columns row' → row = row' := by
  rw [repeats_eq_nil_iff, List.nodup_map_iff_inj_on List.nodup_range]
  simp only [List.mem_range]

omit [F64 F] in
theorem numbers_exact : NumberTexts Int := by
  intro x c hc
  have hlist : (F64.to_text x).toList = (toString x).toList ++ ['.', '0'] :=
    String.toList_append
  rw [hlist, List.mem_append] at hc
  rcases hc with hc | hc
  · rcases Text.mem_toString_int hc with hdigit | hminus
    · have halphanum : c.isAlphanum = (c.isAlpha || c.isDigit) := rfl
      rw [halphanum, hdigit, Bool.or_true]
      exact .inl rfl
    · exact .inr (.inl hminus)
  · rcases List.mem_pair.mp hc with rfl | rfl
    · decide
    · decide

/-- The two keys of a row differ in the separator at their end. -/
theorem pushed_eq_joined {texts : List Json} (hne : texts ≠ []) :
    texts.foldl (fun key text => key ++ text ++ "|") "" = "|".intercalate texts ++ "|" := by
  apply String.toList_injective
  rw [toList_pushed_texts, String.toList_append, String.toList_intercalate]
  exact (Delimited.intercalate_append_sep (by simpa using hne)).symm

theorem count_duplicate_rows_eq (hne : columns ≠ []) :
    (duplicate_rows data columns).count = (duplicate_keys data columns).count := by
  have htuple : ∀ row, tuple data columns row ≠ [] := by
    intro row hnil
    exact hne (List.map_eq_nil_iff.mp hnil)
  rw [duplicate_rows, duplicate_keys, Failures.count_found, Failures.count_found]
  apply congrArg List.length
  apply Repeats.repeats_congr
  intro row _ row' _
  rw [pushed_eq_joined (htuple row), pushed_eq_joined (htuple row')]
  constructor
  · intro h
    have hlist := congrArg String.toList h
    rw [String.toList_append, String.toList_append] at hlist
    exact String.toList_injective (List.append_cancel_right hlist)
  · intro h
    rw [h]

/-- Both return, with the same verdict and the same number of failures. -/
def SameVerdict (result result' : Option (ValidationResult F)) : Prop :=
  ∃ r r', result = some r ∧ result' = some r' ∧ r.passed = r'.passed ∧
    r.failed_count = r'.failed_count

theorem unique_agrees_iff (hne : columns ≠ []) :
    SameVerdict (execute_check libraries data (.Unique columns))
        (execute_check libraries data (.NoDuplicateRows (some columns))) ↔
      data.row_count = 0 ∨ ∀ name ∈ columns, Full data name := by
  constructor
  · intro ⟨r, r', hunique, hrows, _, hfailed⟩
    obtain ⟨hcounted, -⟩ := of_validate_no_duplicate_rows hne hrows
    rcases full_of_validate_unique hne hunique with hnone | hfull
    · rw [hnone] at hfailed
      exact absurd hfailed.symm hcounted
    · exact hfull
  · intro h
    by_cases hfull : ∀ name ∈ columns, Full data name
    · have hfilter : columns.filter data.has_column = columns := by
        rw [List.filter_eq_self]
        intro name hname
        obtain ⟨values, hvalues, -⟩ := hfull name hname
        rw [AssetOutput.has_column, hvalues]
        rfl
      have hrows := validate_no_duplicate_rows_full hne fun name hname _ => hfull name hname
      rw [hfilter] at hrows
      have hcount : (duplicate_rows data columns).count = _ := count_duplicate_rows_eq hne
      refine ⟨_, _, validate_unique_full hne hfull, hrows, ?_, ?_⟩
      · rw [Bool.eq_iff_iff, Failures.passed_result, Failures.passed_result, hcount]
      · rw [Failures.failed_count_result, Failures.failed_count_result, hcount]
    · -- without rows neither looks at a column
      have hzero := h.resolve_right hfull
      have hexisting : ∀ name ∈ columns, data.has_column name = true → Full data name := by
        intro name _ hcolumn
        obtain ⟨values, hvalues⟩ := Option.isSome_iff_exists.mp hcolumn
        exact ⟨values, hvalues, by omega⟩
      have hcount : (duplicate_rows data (columns.filter data.has_column)).count = 0 := by
        rw [duplicate_rows, hzero]
        rfl
      refine ⟨_, _, validate_unique_no_rows hne hzero,
        validate_no_duplicate_rows_full hne hexisting, ?_, ?_⟩
      · exact (Failures.passed_result.mpr hcount).symm
      · rw [Failures.failed_count_result, hcount]
        rfl

omit [F64 F] in
theorem unique_agrees_empty :
    SameVerdict (execute_check exact_libraries .empty (.Unique ["a"]))
      (execute_check exact_libraries .empty (.NoDuplicateRows (some ["a"]))) :=
  (unique_agrees_iff (by decide)).mpr (.inl rfl)

omit [F64 F] in
/-- A column that does not exist: an error for `unique`, a pass for `no_duplicate_rows`. -/
theorem unique_disagrees :
    ¬ SameVerdict
      (execute_check exact_libraries
        (.from_rows exact_libraries.hash [.object [("a", .number (.int 1))]]) (.Unique ["b"]))
      (execute_check exact_libraries
        (.from_rows exact_libraries.hash [.object [("a", .number (.int 1))]])
        (.NoDuplicateRows (some ["b"]))) := by
  intro ⟨r, r', hunique, hrows, hpassed, _⟩
  have hfailed : (execute_check exact_libraries
      (.from_rows exact_libraries.hash [.object [("a", .number (.int 1))]])
      (.Unique ["b"])).map (·.passed) = some false := by decide +kernel
  have hpass : (execute_check exact_libraries
      (.from_rows exact_libraries.hash [.object [("a", .number (.int 1))]])
      (.NoDuplicateRows (some ["b"]))).map (·.passed) = some true := by decide +kernel
  rw [hunique] at hfailed
  rw [hrows] at hpass
  have h : r.passed = false := Option.some.inj hfailed
  have h' : r'.passed = true := Option.some.inj hpass
  rw [h, h'] at hpassed
  cases hpassed

end Servo.CheckValidator
