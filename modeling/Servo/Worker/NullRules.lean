import Servo.Worker.FailureCounts

/-! # What Null Values Count

    A field that a row does not have is null in the column. `not_null` counts
    each of these as a failure, `unique` takes them for one more value, and
    the other checks of a column skip them. For `in_range` and `regex` that is
    the rule, as long as rows without a value are not all there is: then the
    column goes with them. For `accepted_values` it is not, as null is to be
    looked up like any other value.
-/

namespace Servo.CheckValidator

open Python (exact_libraries)
open Repeats (repeats length_repeats)
open AssetOutput (cell keys from_rows)

variable {F : Type}

/-! ### Counting cells -/

theorem length_failing_rows (p : Value F → Bool) (values : List (Value F)) :
    (failing_rows (fun _ value => p value) values).length = (values.filter p).length := by
  have hfilter := List.filter_map (f := Prod.fst) (p := p) (l := values.zipIdx)
  rw [List.zipIdx_map_fst] at hfilter
  rw [failing_rows, hfilter, List.length_map, List.length_map]
  rfl

theorem length_filter_cells (p : Value F → Bool) (rows : List (Value F)) (name : String) :
    ((rows.map (cell name)).filter p).length =
      (rows.filter fun row => p (cell name row)).length := by
  rw [List.filter_map, List.length_map]
  rfl

/-- A row with a value in the column has the field. -/
theorem mem_keys_of_cell {name : String} {row : Value F} (h : (cell name row).is_null = false) :
    name ∈ keys row := by
  cases row with
  | object members =>
    rw [keys]
    cases hlookup : members.lookup name with
    | none =>
      rw [cell, hlookup] at h
      cases h
    | some value =>
      have hsome : (members.lookup name).isSome = true := by rw [hlookup]; rfl
      rw [List.lookup_isSome_iff] at hsome
      simpa using hsome
  | _ => cases h

section one_column
variable {hash : HashOrder String} {rows : List (Value F)} {column : String}
  {fails : Nat → Value F → Option (Value F)} {message : Nat → String} {p : Value F → Bool}

/-- The failures of a column are those of its cells. -/
theorem validate_cells (hoccurs : ∃ row ∈ rows, column ∈ keys row)
    (hp : ∀ idx value, (fails idx value).isSome = p value) :
    (validate_column (from_rows hash rows) column fails message).failed_count =
        some (((rows.filter fun row => p (cell column row)).length : Nat) : Int) ∧
      ((validate_column (from_rows hash rows) column fails message).passed = true ↔
        (rows.filter fun row => p (cell column row)).length = 0) := by
  have hcolumn : (from_rows hash rows).get_column column = some (rows.map (cell column)) := by
    rw [get_column_of_rows, if_pos (List.mem_flatMap.mpr hoccurs)]
  have hcount : (failing_values fails (rows.map (cell column))).count =
      (rows.filter fun row => p (cell column row)).length := by
    have hfails : (fun idx value => (fails idx value).isSome) = fun (_ : Nat) value => p value :=
      funext fun idx => funext fun value => hp idx value
    rw [count_failing_rows, hfails, length_failing_rows, length_filter_cells]
  rw [validate_column, hcolumn]
  dsimp only
  rw [Failures.failed_count_result, Failures.passed_result, hcount]
  exact ⟨rfl, Iff.rfl⟩

/-- The same rows, apart from those without a value in the column. -/
def SameButNulls (column : String) (rows rows' : List (Value F)) : Prop :=
  (rows.filter fun row => !(cell column row).is_null) =
    rows'.filter fun row => !(cell column row).is_null

/-- Null cells do not fail: they make no difference, as long as the column stays. -/
theorem skips_nulls_iff (hoccurs : ∃ row ∈ rows, column ∈ keys row)
    (hp : ∀ idx value, (fails idx value).isSome = p value) (hnull : p .null = false) :
    (∀ rows', SameButNulls column rows rows' →
      SameVerdict (some (validate_column (from_rows hash rows') column fails message))
        (some (validate_column (from_rows hash rows) column fails message))) ↔
      ∃ row ∈ rows, (cell column row).is_null = false := by
  have hskip : ∀ row, p (cell column row) = true → (!(cell column row).is_null) = true := by
    intro row hrow
    by_contra hnot
    have hcell : cell column row = .null := by
      cases hcell : cell column row with
      | null => rfl
      | _ => exact absurd (by rw [hcell]; rfl) hnot
    rw [hcell, hnull] at hrow
    cases hrow
  have hfilter : ∀ rows : List (Value F), (rows.filter fun row => p (cell column row)) =
      (rows.filter fun row => !(cell column row).is_null).filter fun row =>
        p (cell column row) := by
    intro rows
    rw [List.filter_filter]
    refine List.filter_congr fun row _ => ?_
    cases hrow : p (cell column row) with
    | false => rfl
    | true => rw [hskip row hrow]; rfl
  constructor
  · intro h
    by_contra hall
    -- all rows are removed, and the column with them
    have hsame : SameButNulls column rows [] := by
      rw [SameButNulls, List.filter_nil, List.filter_eq_nil_iff]
      intro row hrow
      have hcell : (cell column row).is_null ≠ false := fun hcell => hall ⟨row, hrow, hcell⟩
      simpa using hcell
    obtain ⟨r, r', hr, hr', -, hfailed⟩ := h [] hsame
    cases hr
    cases hr'
    have hnone : (from_rows hash ([] : List (Value F))).get_column column = none := by
      rw [get_column_of_rows]
      exact if_neg List.not_mem_nil
    rw [(validate_cells hoccurs hp).1, validate_column, hnone] at hfailed
    cases hfailed
  · intro hpresent rows' hsame
    obtain ⟨row, hrow, hcell⟩ := hpresent
    have hrow' : row ∈ rows' := by
      have hmem : row ∈ rows.filter fun row => !(cell column row).is_null :=
        List.mem_filter.mpr ⟨hrow, by rw [hcell]; rfl⟩
      rw [hsame] at hmem
      exact (List.mem_filter.mp hmem).1
    have hoccurs' : ∃ row ∈ rows', column ∈ keys row := ⟨row, hrow', mem_keys_of_cell hcell⟩
    have hcount : (rows'.filter fun row => p (cell column row)) =
        rows.filter fun row => p (cell column row) := by
      rw [hfilter rows', hfilter rows, hsame]
    obtain ⟨hfailed, hpassed⟩ :
        (validate_column (from_rows hash rows) column fails message).failed_count = _ ∧ _ :=
      validate_cells hoccurs hp
    obtain ⟨hfailed', hpassed'⟩ :
        (validate_column (from_rows hash rows') column fails message).failed_count = _ ∧ _ :=
      validate_cells hoccurs' hp
    refine ⟨_, _, rfl, rfl, ?_, ?_⟩
    · rw [Bool.eq_iff_iff, hpassed, hpassed', hcount]
    · rw [hfailed, hfailed', hcount]

end one_column

/-! ### The texts of null -/

/-- No finite number is written as `null`. -/
def NullTexts (F : Type) [F64 F] : Prop :=
  ∀ x : F, F64.is_finite x = true → F64.to_text x ≠ "null"

/-- A number in JSON is finite. -/
def FiniteCells [F64 F] (rows : List (Value F)) : Prop :=
  ∀ row ∈ rows, ∀ name x, cell name row = .number (.float x) → F64.is_finite x = true

theorem null_of_text [F64 F] (hnull : NullTexts F) {value : Value F}
    (hfinite : ∀ x, value = .number (.float x) → F64.is_finite x = true)
    (htext : value.to_text = "null") : value.is_null = true := by
  have hhead : value.to_text.toList.head? = some 'n' := by
    rw [htext]
    decide
  cases value with
  | null => rfl
  | bool b =>
    cases b with
    | true => exact absurd htext (show ("true" : String) ≠ "null" by decide)
    | false => exact absurd htext (show ("false" : String) ≠ "null" by decide)
  | number n =>
    cases n with
    | float x => exact absurd htext (hnull x (hfinite x rfl))
    | int n =>
      have hn : 'n' ∈ (toString n).toList := List.mem_of_head? hhead
      rcases Text.mem_toString_int hn with hdigit | hminus
      · exact absurd hdigit (by decide)
      · exact absurd hminus (by decide)
  | string text =>
    rw [Value.to_text, toList_json_string] at hhead
    exact absurd (Option.some.inj hhead) (by decide)
  | array items =>
    rw [Value.to_text, String.toList_append, String.toList_append] at hhead
    exact absurd (Option.some.inj hhead) (by decide)
  | object members =>
    rw [Value.to_text, String.toList_append, String.toList_append] at hhead
    exact absurd (Option.some.inj hhead) (by decide)

/-- What is compared of a cell: its text, and null as one more value. -/
def cell_key [F64 F] (value : Value F) : Option Json :=
  if value.is_null then none else some value.to_text

theorem cell_key_eq_iff [F64 F] (hnull : NullTexts F) {value value' : Value F}
    (hfinite : ∀ x, value = .number (.float x) → F64.is_finite x = true)
    (hfinite' : ∀ x, value' = .number (.float x) → F64.is_finite x = true) :
    cell_key value = cell_key value' ↔ value.to_text = value'.to_text := by
  have htext : ∀ value : Value F, value.is_null = true → value.to_text = "null" := by
    intro value h
    cases value with
    | null => rfl
    | _ => cases h
  unfold cell_key
  by_cases h : value.is_null = true
  · by_cases h' : value'.is_null = true
    · rw [if_pos h, if_pos h', htext value h, htext value' h']
      exact iff_of_true rfl rfl
    · rw [if_pos h, if_neg h', htext value h]
      refine iff_of_false (by simp) fun heq => ?_
      exact h' (null_of_text hnull hfinite' heq.symm)
  · by_cases h' : value'.is_null = true
    · rw [if_neg h, if_pos h', htext value' h']
      refine iff_of_false (by simp) fun heq => ?_
      exact h (null_of_text hnull hfinite heq)
    · rw [if_neg h, if_neg h', Option.some.injEq]

/-- What is compared of a row. -/
def row_key [F64 F] (columns : List String) (row : Value F) : List (Option Json) :=
  columns.map fun name => cell_key (cell name row)

/-! ### The rules -/

section rules
variable [F64 F] (libraries : Libraries F) (hash : HashOrder String) (rows : List (Value F))

/-- The check is over columns that occur in the data. -/
def OverColumns : CheckType F → Prop
  | .NotNull columns => ∀ name ∈ columns, ∃ row ∈ rows, name ∈ keys row
  | .Unique columns => columns ≠ [] ∧ ∀ name ∈ columns, ∃ row ∈ rows, name ∈ keys row
  | .InRange column _ _ | .Regex column _ | .AcceptedValues column _ =>
    ∃ row ∈ rows, column ∈ keys row
  | _ => True

/-- The number of failures that a check reports. -/
def Counts (check : CheckType F) (count : Nat) : Prop :=
  ∃ result, execute_check libraries (from_rows hash rows) check = some result ∧
    result.failed_count = some (count : Int) ∧ (result.passed = true ↔ count = 0)

/-- What the documentation says of null values. -/
def NullRule : CheckType F → Prop
  -- counts nulls (including missing fields) as failures
  | .NotNull columns => Counts libraries hash rows (.NotNull columns)
      (columns.flatMap fun name => rows.filter fun row => (cell name row).is_null).length
  -- treats null as a distinct value
  | .Unique columns => Counts libraries hash rows (.Unique columns)
      (rows.length - (rows.map (row_key columns)).dedup.length)
  -- skip null values
  | .InRange column min max => ∀ rows', SameButNulls column rows rows' →
      SameVerdict (execute_check libraries (from_rows hash rows') (.InRange column min max))
        (execute_check libraries (from_rows hash rows) (.InRange column min max))
  | .Regex column pattern => ∀ rows', SameButNulls column rows rows' →
      SameVerdict (execute_check libraries (from_rows hash rows') (.Regex column pattern))
        (execute_check libraries (from_rows hash rows) (.Regex column pattern))
  -- checks if null is in the allowed set
  | .AcceptedValues column values => Counts libraries hash rows (.AcceptedValues column values)
      (rows.filter fun row =>
        if (cell column row).is_null then !values.any Value.is_null
        else (cell column row).to_text ∉ values.map Value.to_text).length
  | _ => True

/-- When the validators follow the rules. -/
def FollowsRule : CheckType F → Prop
  | .InRange column _ _ => ∃ row ∈ rows, (cell column row).is_null = false
  | .Regex column pattern => (∃ e, libraries.regex pattern = .error e) ∨
      ∃ row ∈ rows, (cell column row).is_null = false
  | .AcceptedValues column values => values.any Value.is_null = true ∨
      ∀ row ∈ rows, (cell column row).is_null = false
  | _ => True

end rules

section validators
variable [F64 F] {libraries : Libraries F} {hash : HashOrder String} {rows : List (Value F)}

omit [F64 F] in
theorem length_null_rows {name : String} (hoccurs : ∃ row ∈ rows, name ∈ keys row) :
    (null_rows (from_rows hash rows) name).length =
      (rows.filter fun row => (cell name row).is_null).length := by
  rw [null_rows, get_column_of_rows, if_pos (List.mem_flatMap.mpr hoccurs), Option.getD_some,
    length_failing_rows, length_filter_cells]

theorem not_null_counts {columns : List String}
    (hover : ∀ name ∈ columns, ∃ row ∈ rows, name ∈ keys row) :
    Counts libraries hash rows (.NotNull columns)
      (columns.flatMap fun name => rows.filter fun row => (cell name row).is_null).length := by
  have hexist : ∀ name ∈ columns, (from_rows hash rows).has_column name = true :=
    fun name hname => has_column_from_rows.mpr (hover name hname)
  obtain ⟨found, hfound, hcount⟩ := count_add_columns hexist .none
  have hlength : (columns.flatMap (null_rows (from_rows hash rows))).length =
      (columns.flatMap fun name => rows.filter fun row => (cell name row).is_null).length := by
    rw [List.length_flatMap, List.length_flatMap]
    exact congrArg List.sum (List.map_congr_left fun name hname =>
      length_null_rows (hover name hname))
  have hexec : execute_check libraries (from_rows hash rows) (.NotNull columns) =
      some (found.result rows.length (toString found.count ++
        " null values found in columns " ++ debug_list (columns.map libraries.debug))) :=
    congrArg some (validate_not_null_of_ok hfound)
  rw [Failures.count_none, Nat.zero_add, hlength] at hcount
  refine ⟨_, hexec, ?_, ?_⟩
  · rw [Failures.failed_count_result, hcount]
  · rw [Failures.passed_result, hcount]

/-- The tuples of two rows are the same if their keys are. -/
theorem tuple_from_rows_eq_iff (hnull : NullTexts F) (hfinite : FiniteCells rows)
    {columns : List String} (hover : ∀ name ∈ columns, ∃ row ∈ rows, name ∈ keys row)
    {i j : Nat} (hi : i < rows.length) (hj : j < rows.length) :
    tuple (from_rows hash rows) columns i = tuple (from_rows hash rows) columns j ↔
      row_key columns rows[i] = row_key columns rows[j] := by
  have hvalue : ∀ name ∈ columns, ∀ k (hk : k < rows.length),
      value_at (from_rows hash rows) k name = cell name rows[k] := by
    intro name hname k hk
    have hcolumn : (from_rows hash rows).get_column name = some (rows.map (cell name)) := by
      rw [get_column_of_rows, if_pos (List.mem_flatMap.mpr (hover name hname))]
    rw [value_at_eq hcolumn (by simpa using hk), List.getElem_map]
  rw [tuple_eq_iff, row_key, row_key, List.map_inj_left]
  refine forall₂_congr fun name hname => ?_
  rw [hvalue name hname i hi, hvalue name hname j hj]
  exact (cell_key_eq_iff hnull (fun x => hfinite _ (List.getElem_mem hi) name x)
    fun x => hfinite _ (List.getElem_mem hj) name x).symm

theorem unique_counts_keys (hnumbers : NumberTexts F) (hnull : NullTexts F)
    (hfinite : FiniteCells rows) {columns : List String} (hne : columns ≠ [])
    (hover : ∀ name ∈ columns, ∃ row ∈ rows, name ∈ keys row) :
    Counts libraries hash rows (.Unique columns)
      (rows.length - (rows.map (row_key columns)).dedup.length) := by
  have hfull : ∀ name ∈ columns, Full (from_rows hash rows) name := fun name hname =>
    (one_per_row_from_rows hash rows).full (has_column_from_rows.mpr (hover name hname))
  have hrow : ∀ {i : Nat} (hi : i < rows.length), rows.getD i .null = rows[i] := by
    intro i hi
    rw [List.getD_eq_getElem?_getD, List.getElem?_eq_getElem hi, Option.getD_some]
  have hrepeats :
      (repeats (tuple (from_rows hash rows) columns) [] (List.range rows.length)).length =
        rows.length - (rows.map (row_key columns)).dedup.length := by
    have hsame : repeats (tuple (from_rows hash rows) columns) [] (List.range rows.length) =
        repeats (fun i => row_key columns (rows.getD i .null)) [] (List.range rows.length) := by
      apply Repeats.repeats_congr
      intro i hi j hj
      have hi := List.mem_range.mp hi
      have hj := List.mem_range.mp hj
      rw [tuple_from_rows_eq_iff hnull hfinite hover hi hj, hrow hi, hrow hj]
    have hmap : (List.range rows.length).map (fun i => row_key columns (rows.getD i .null)) =
        rows.map (row_key columns) := by
      apply List.ext_getElem (by simp)
      intro i hi hi'
      have hi' : i < rows.length := by simpa using hi'
      rw [List.getElem_map, List.getElem_map, List.getElem_range, hrow hi']
    have hlength := length_repeats (k := fun i => row_key columns (rows.getD i .null))
      (List.range rows.length)
    rw [hmap, List.length_range] at hlength
    rw [hsame]
    omega
  have hcount : (duplicate_keys (from_rows hash rows) columns).count = _ :=
    (count_duplicate_keys hnumbers hne).trans hrepeats
  refine ⟨_, validate_unique_full hne hfull, ?_, ?_⟩
  · rw [Failures.failed_count_result, hcount]
  · rw [Failures.passed_result, hcount]

/-- A null cell is looked up like any other exactly if null is in the list, or there is none. -/
theorem accepted_values_rule_iff {column : String} {values : List (Value F)}
    (hoccurs : ∃ row ∈ rows, column ∈ keys row) :
    Counts libraries hash rows (.AcceptedValues column values)
        (rows.filter fun row =>
          if (cell column row).is_null then !values.any Value.is_null
          else (cell column row).to_text ∉ values.map Value.to_text).length ↔
      values.any Value.is_null = true ∨ ∀ row ∈ rows, (cell column row).is_null = false := by
  let p : Value F → Bool := fun value =>
    !value.is_null && decide (value.to_text ∉ values.map Value.to_text)
  let q : Value F → Bool := fun value =>
    if value.is_null then !values.any Value.is_null
    else decide (value.to_text ∉ values.map Value.to_text)
  have hp : ∀ idx value, (not_accepted column values idx value).isSome = p value := by
    intro idx value
    cases hnull : value.is_null <;>
      by_cases hlisted : value.to_text ∈ values.map Value.to_text <;>
        simp only [not_accepted, p, hnull, hlisted] <;> rfl
  have hpq : ∀ row, p (cell column row) = true → q (cell column row) = true := by
    intro row hrow
    cases hnull : (cell column row).is_null with
    | true => simp [p, hnull] at hrow
    | false => simpa [p, q, hnull] using hrow
  obtain ⟨hfailed, hpassed⟩ :
      (validate_accepted_values (from_rows hash rows) column values).failed_count = _ ∧ _ :=
    validate_cells hoccurs hp
  have hlength : (rows.filter fun row => p (cell column row)).length =
      (rows.filter fun row => q (cell column row)).length ↔
        values.any Value.is_null = true ∨ ∀ row ∈ rows, (cell column row).is_null = false := by
    have hfilter : (rows.filter fun row => p (cell column row)) =
        (rows.filter fun row => q (cell column row)).filter fun row => p (cell column row) := by
      rw [List.filter_filter]
      refine List.filter_congr fun row _ => ?_
      cases hrow : p (cell column row) with
      | false => rfl
      | true => rw [hpq row hrow]; rfl
    rw [hfilter, List.length_filter_eq_length_iff]
    constructor
    · intro hall
      by_cases hlisted : values.any Value.is_null = true
      · exact .inl hlisted
      · right
        intro row hrow
        by_contra hcell
        have hnull : (cell column row).is_null = true := by simpa using hcell
        have hq : q (cell column row) = true := by simp [q, hnull, hlisted]
        have hp := hall row (List.mem_filter.mpr ⟨hrow, hq⟩)
        simp [p, hnull] at hp
    · intro h row hrow
      obtain ⟨hmem, hq⟩ := List.mem_filter.mp hrow
      cases hnull : (cell column row).is_null with
      | false => simpa [p, q, hnull] using hq
      | true =>
        rcases h with hlisted | hcells
        · simp [q, hnull, hlisted] at hq
        · rw [hcells row hmem] at hnull
          cases hnull
  rw [← hlength]
  constructor
  · intro ⟨result, hexec, hcount, _⟩
    have hresult : result = validate_accepted_values (from_rows hash rows) column values :=
      (Option.some.inj hexec).symm
    rw [hresult, hfailed, Option.some.injEq, Int.natCast_inj] at hcount
    exact hcount
  · intro hcount
    refine ⟨_, rfl, ?_, ?_⟩
    · exact hfailed.trans (congrArg (fun n : Nat => some (n : Int)) hcount)
    · exact hpassed.trans (by rw [hcount])

theorem isSome_out_of_range (column : String) (min max : Option F) (idx : Nat) (value : Value F) :
    (out_of_range column min max idx value).isSome =
      (out_of_range column min max 0 value).isSome := by
  cases value with
  | number n =>
    unfold out_of_range
    dsimp only
    split <;> rfl
  | _ => rfl

omit [F64 F] in
theorem isSome_non_matching (is_match : String → Bool) (column pattern : String) (idx : Nat)
    (value : Value F) :
    (non_matching is_match column pattern idx value).isSome =
      (non_matching is_match column pattern 0 value).isSome := by
  cases value with
  | string text =>
    unfold non_matching
    dsimp only
    split <;> rfl
  | _ => rfl

/-- The rules, and when the validators follow them. -/
theorem null_rules_iff (hnumbers : NumberTexts F) (hnull : NullTexts F)
    (hfinite : FiniteCells rows) (libraries : Libraries F) (hash : HashOrder String)
    {check : CheckType F} (hover : OverColumns rows check) :
    NullRule libraries hash rows check ↔ FollowsRule libraries rows check := by
  cases check with
  | NotNull columns => exact iff_of_true (not_null_counts hover) trivial
  | Unique columns =>
    exact iff_of_true (unique_counts_keys hnumbers hnull hfinite hover.1 hover.2) trivial
  | InRange column min max =>
    exact skips_nulls_iff hover (isSome_out_of_range column min max) rfl
  | Regex column pattern =>
    simp only [NullRule, FollowsRule, execute_check, validate_regex]
    cases hregex : libraries.regex pattern with
    | error e =>
      refine iff_of_true ?_ (.inl ⟨e, rfl⟩)
      intro rows' _
      exact ⟨_, _, rfl, rfl, rfl, rfl⟩
    | ok is_match =>
      rw [or_iff_right (by simp)]
      exact skips_nulls_iff hover (isSome_non_matching is_match column pattern) rfl
  | AcceptedValues column values => exact accepted_values_rule_iff hover
  | _ => exact iff_of_true trivial trivial

end validators

theorem null_texts_exact : NullTexts Int := by
  intro x _ h
  have htext : toString x ++ ".0" = "null" := h
  have hpoint : '.' ∈ ("null" : String).toList := by
    rw [← htext, String.toList_append]
    exact List.mem_append_right _ (by decide)
  exact absurd hpoint (by decide)

/-- Two rows without a name are the same for `unique`. -/
theorem null_rules_unnamed :
    NullRule exact_libraries exact_libraries.hash
      [.object [("name", .null)], .object [], .object [("name", .string "Bob")]]
      (.Unique ["name"]) := by
  have hfinite : FiniteCells (F := Int)
      [.object [("name", .null)], .object [], .object [("name", .string "Bob")]] :=
    fun _ _ _ _ _ => rfl
  have hover : OverColumns (F := Int)
      [.object [("name", .null)], .object [], .object [("name", .string "Bob")]]
      (.Unique ["name"]) := by
    refine ⟨by decide, ?_⟩
    intro name hname
    exact ⟨.object [("name", .null)], List.mem_cons_self, hname⟩
  exact (null_rules_iff numbers_exact null_texts_exact hfinite exact_libraries
    exact_libraries.hash hover).mpr trivial

/-- A null value that is not in the list passes. -/
theorem null_is_skipped :
    ¬ NullRule exact_libraries exact_libraries.hash [.object [("status", .null)]]
      (.AcceptedValues "status" [.string "active"]) := by
  intro ⟨result, hexec, hfailed, _⟩
  cases hexec
  have hzero : (validate_accepted_values (from_rows exact_libraries.hash
      [.object [("status", .null)]] : AssetOutput Int) "status" [.string "active"]).failed_count =
        some 0 := rfl
  rw [hzero] at hfailed
  revert hfailed
  decide

end Servo.CheckValidator
