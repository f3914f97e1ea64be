import Servo.Core.Compiler
import Servo.Core.Value

/-! # Check Validation

    The validators of the worker: what each check type says of the output of
    an asset. The output is columnar, and a validator that goes through it
    row by row panics where a column is too short; `none` stands for that.

    Regular expressions, double-precision numbers, the text of a `serde`
    error and the order of a hash set are parameters.
-/

namespace Servo.CheckValidator

variable {F : Type}

/-! ### Asset output -/

/-- Represents the output data from an asset execution. -/
structure AssetOutput (F : Type) where
  /-- The columns, in the order in which the map is iterated over. -/
  columns : List (String × List (Value F))
  row_count : Nat
  nodup : (columns.map Prod.fst).Nodup

namespace AssetOutput

/-- Create a new empty asset output. -/
def empty : AssetOutput F := ⟨[], 0, List.nodup_nil⟩

/-- The names of the fields of a row. -/
def keys : Value F → List String
  | .object members => members.map Prod.fst
  | _ => []

/-- A field of a row, `Null` if it is missing or the row is no object. -/
def cell (name : String) : Value F → Value F
  | .object members => (members.lookup name).getD .null
  | _ => .null

/-- Create asset output from rows of JSON objects. -/
def from_rows (hash : HashOrder String) (rows : List (Value F)) : AssetOutput F :=
  -- First pass: collect all column names from all rows
  let all_columns := hash.order (rows.flatMap keys).dedup
  { columns := all_columns.map fun name => (name, rows.map (cell name))
    row_count := rows.length
    nodup := by
      rw [List.map_map, show Prod.fst ∘ (fun name => (name, rows.map (cell name))) = id from rfl,
        List.map_id]
      exact (hash.perm _).nodup_iff.mpr (List.nodup_dedup _) }

/-- Get a column's values by name. -/
def get_column (data : AssetOutput F) (name : String) : Option (List (Value F)) :=
  data.columns.lookup name

/-- Check if a column exists. -/
def has_column (data : AssetOutput F) (name : String) : Bool := (data.get_column name).isSome

end AssetOutput

/-! ### Results -/

/-- Result of executing a check validation. -/
structure ValidationResult (F : Type) where
  passed : Bool
  failed_count : Option Int
  total_count : Option Int
  error_message : Option String
  failed_samples : Option (Value F)

namespace ValidationResult

/-- Create a passed result. -/
def pass (total_count : Int) : ValidationResult F :=
  ⟨true, some 0, some total_count, none, none⟩

/-- Create a failed result. -/
def failed (failed_count total_count : Int) (message : String) : ValidationResult F :=
  ⟨false, some failed_count, some total_count, some message, none⟩

/-- Create a failed result with samples. -/
def failed_with_samples (failed_count total_count : Int) (message : String) (samples : Value F) :
    ValidationResult F :=
  ⟨false, some failed_count, some total_count, some message, some samples⟩

/-- Create an error result (check couldn't execute). -/
def error (message : String) : ValidationResult F := ⟨false, none, none, some message, none⟩

/-- A column that a check names is not there. -/
def column_not_found (name : String) : ValidationResult F :=
  error ("Column '" ++ name ++ "' not found in data")

end ValidationResult

/-- Maximum number of failed samples to include in results. -/
def MAX_FAILED_SAMPLES : Nat := 10

/-- The failures that a validator has found, and samples of them. -/
structure Failures (F : Type) where
  count : Nat
  samples : List (Value F)

namespace Failures

def none : Failures F := ⟨0, []⟩

/-- One more. -/
def add (failures : Failures F) (sample : Value F) : Failures F where
  count := failures.count + 1
  samples :=
    if failures.samples.length < MAX_FAILED_SAMPLES then failures.samples ++ [sample]
    else failures.samples

/-- What the validators return at their end. -/
def result (failures : Failures F) (total : Nat) (message : String) : ValidationResult F :=
  if failures.count = 0 then .pass total
  else .failed_with_samples failures.count total message (.array failures.samples)

end Failures

/-! ### Check types -/

/-- Check type definitions parsed from JSON. -/
inductive CheckType (F : Type) where
  | NotNull (columns : List String)
  | Unique (columns : List String)
  | InRange (column : String) (min max : Option F)
  | Regex (column pattern : String)
  | RowCount (min max : Option Int)
  | AcceptedValues (column : String) (values : List (Value F))
  | NoDuplicateRows (columns : Option (List String))
  | Freshness (timestamp_column : String) (max_age_seconds : Int)
  | ReferentialIntegrity (column reference_table reference_column : String)
  | SchemaMatch (expected_columns : List String) (allow_extra_columns : Bool)
  | Custom (name description : Option String)

/-- The fields of a variant: by name in an object, by position in an array. -/
structure Fields (F : Type) where
  get : Nat → String → Option (Value F)
  /-- The number of fields, where it may not exceed that of the variant. -/
  length : Option Nat

namespace Fields
variable {α : Type} (fields : Fields F)

/-- A field without default. -/
def required (position : Nat) (name : String) (read : Value F → Option α) : Option α :=
  (fields.get position name).bind read

/-- A field with `#[serde(default)]`. -/
def optional (position : Nat) (name : String) (default : α) (read : Value F → Option α) :
    Option α :=
  match fields.get position name with
  | some value => read value
  | .none => some default

/-- All fields have been read. -/
def done (count : Nat) (check_type : CheckType F) : Option (CheckType F) :=
  if fields.length.all (· ≤ count) then some check_type else .none

end Fields

/-- The tag of an internally tagged enum, and its fields. -/
def tagged : Value F → Option (String × Fields F)
  | .object members => do
    let tag ← (← members.lookup "type").as_string
    some (tag, ⟨fun _ name => members.lookup name, none⟩)
  | .array (tag :: rest) => do
    let tag ← tag.as_string
    some (tag, ⟨fun position _ => rest[position]?, some rest.length⟩)
  | _ => none

section validators
variable [F64 F]

/-- `CheckType::deserialize`. -/
def CheckType.deserialize (value : Value F) : Option (CheckType F) := do
  let (tag, fields) ← tagged value
  match tag with
  | "not_null" => fields.done 1 (.NotNull (← fields.required 0 "columns" Value.as_strings))
  | "unique" => fields.done 1 (.Unique (← fields.required 0 "columns" Value.as_strings))
  | "in_range" =>
    fields.done 3 (.InRange (← fields.required 0 "column" Value.as_string)
      (← fields.optional 1 "min" none (Value.as_option Value.as_f64))
      (← fields.optional 2 "max" none (Value.as_option Value.as_f64)))
  | "regex" =>
    fields.done 2 (.Regex (← fields.required 0 "column" Value.as_string)
      (← fields.required 1 "pattern" Value.as_string))
  | "row_count" =>
    fields.done 2 (.RowCount (← fields.optional 0 "min" none (Value.as_option Value.as_i64))
      (← fields.optional 1 "max" none (Value.as_option Value.as_i64)))
  | "accepted_values" =>
    fields.done 2 (.AcceptedValues (← fields.required 0 "column" Value.as_string)
      (← fields.required 1 "values" (Value.as_vec some)))
  | "no_duplicate_rows" =>
    fields.done 1 (.NoDuplicateRows
      (← fields.optional 0 "columns" none (Value.as_option Value.as_strings)))
  | "freshness" =>
    fields.done 2 (.Freshness (← fields.required 0 "timestamp_column" Value.as_string)
      (← fields.required 1 "max_age_seconds" Value.as_i64))
  | "referential_integrity" =>
    fields.done 3 (.ReferentialIntegrity (← fields.required 0 "column" Value.as_string)
      (← fields.required 1 "reference_table" Value.as_string)
      (← fields.required 2 "reference_column" Value.as_string))
  | "schema_match" =>
    fields.done 2 (.SchemaMatch (← fields.required 0 "expected_columns" Value.as_strings)
      (← fields.optional 1 "allow_extra_columns" true Value.as_bool))
  | "custom" =>
    fields.done 2 (.Custom (← fields.optional 0 "name" none (Value.as_option Value.as_string))
      (← fields.optional 1 "description" none (Value.as_option Value.as_string)))
  | _ => none

/-! ### Validators -/

/-- What the validators use of other crates and of the standard library. -/
structure Libraries (F : Type) where
  /-- `Regex::new`, with `is_match` of what it gives. -/
  regex : String → Except String (String → Bool)
  /-- The error of `from_value` for a value that is no check type. -/
  invalid_check_type : Value F → String
  /-- The `Debug` text of a string. -/
  debug : String → String
  hash : HashOrder String

/-- The `Debug` text of a list. -/
def debug_list (texts : List String) : String := "[" ++ ", ".intercalate texts ++ "]"

/-- The `Debug` text of an `Option`. -/
def debug_option {α : Type} (debug : α → String) : Option α → String
  | some x => "Some(" ++ debug x ++ ")"
  | none => "None"

variable (libraries : Libraries F) (data : AssetOutput F)

/-- The null values of one column. -/
def null_values (name : String) (values : List (Value F)) (failures : Failures F) : Failures F :=
  values.zipIdx.foldl (fun failures (value, idx) =>
    if value.is_null then
      failures.add (.object [("column", .string name), ("reason", .string "null value"),
        ("row", .of_nat idx)])
    else failures) failures

/-- Validate that specified columns contain no null values. -/
def validate_not_null (columns : List String) : ValidationResult F :=
  let found : Except (ValidationResult F) (Failures F) :=
    columns.foldlM (fun failures name =>
      match data.get_column name with
      | some values => .ok (null_values name values failures)
      | none => .error (.column_not_found name)) .none
  match found with
  | .ok failures => failures.result data.row_count
      (toString failures.count ++ " null values found in columns " ++
        debug_list (columns.map libraries.debug))
  | .error result => result

/-- What goes through the rows: it may return a result early, and it may panic. -/
abbrev RowM (F : Type) : Type → Type := ExceptT (ValidationResult F) Option

/-- `values[row_idx]`. -/
def index (values : List (Value F)) (row_idx : Nat) : RowM F (Value F) :=
  ExceptT.lift values[row_idx]?

/-- One row; the keys that have been seen, and the rows whose key had been seen before. -/
def look_at_row (key : Nat → RowM F String) (sample : Nat → String → Value F)
    (found : List String × Failures F) (row_idx : Nat) : RowM F (List String × Failures F) := do
  let row_key ← key row_idx
  if row_key ∈ found.1 then return (found.1, found.2.add (sample row_idx row_key))
  else return (row_key :: found.1, found.2)

/-- The rows whose key is that of an earlier row. -/
def repeated_rows (key : Nat → RowM F String) (sample : Nat → String → Value F)
    (row_count : Nat) : RowM F (Failures F) := do
  let found ← (List.range row_count).foldlM (look_at_row key sample) ([], .none)
  return found.2

/-- What a validator returns in the end, or has returned early. -/
def finish (found : RowM F (ValidationResult F)) : Option (ValidationResult F) :=
  found.run.map fun result =>
    match result with
    | .ok result => result
    | .error result => result

/-- The text of a row's value in a column. -/
def key_part (row_idx : Nat) (name : String) : RowM F String :=
  match data.get_column name with
  | some values => do return (← index values row_idx).to_text
  | none => throw (.column_not_found name)

/-- Validate that specified columns have unique values. -/
def validate_unique (columns : List String) : Option (ValidationResult F) :=
  if columns = [] then some (.error "Unique check requires at least one column")
  else finish do
    let key := fun row_idx => do
      let key_parts ← columns.mapM (key_part data row_idx)
      return "|".intercalate key_parts
    let sample := fun row_idx key => .object [("columns", .array (columns.map .string)),
      ("duplicate_key", .string key), ("row", .of_nat row_idx)]
    let duplicates ← repeated_rows key sample data.row_count
    return duplicates.result data.row_count
      (toString duplicates.count ++ " duplicate values found in columns " ++
        debug_list (columns.map libraries.debug))

/-- The failures among the values of a column. -/
def failing_values (fails : Nat → Value F → Option (Value F)) (values : List (Value F)) :
    Failures F :=
  values.zipIdx.foldl (fun failures (value, idx) =>
    match fails idx value with
    | some sample => failures.add sample
    | none => failures) .none

/-- A validator of the values of one column. -/
def validate_column (column : String) (fails : Nat → Value F → Option (Value F))
    (message : Nat → String) : ValidationResult F :=
  match data.get_column column with
  | some values =>
    let failures := failing_values fails values
    failures.result data.row_count (message failures.count)
  | none => .column_not_found column

/-- A number that is out of range, or a value that is none. -/
def out_of_range (column : String) (min max : Option F) (idx : Nat) (value : Value F) :
    Option (Value F) :=
  match value with
  | .number n =>
    let num := n.as_f64
    let below_min := min.any fun m => F64.lt num m
    let above_max := max.any fun m => F64.lt m num
    if below_min || above_max then
      some (.object [("column", .string column), ("max", .of_option .of_f64 max),
        ("min", .of_option .of_f64 min),
        ("reason", .string (if below_min then "below minimum" else "above maximum")),
        ("row", .of_nat idx), ("value", .of_f64 num)])
    else none
  | .null => none -- Skip nulls in range check
  | _ =>
    some (.object [("column", .string column), ("reason", .string "non-numeric value"),
      ("row", .of_nat idx), ("value", value)])

/-- Validate that numeric column values fall within bounds. -/
def validate_in_range (column : String) (min max : Option F) : ValidationResult F :=
  validate_column data column (out_of_range column min max) fun count =>
    toString count ++ " values in column '" ++ column ++ "' outside range [" ++
      debug_option F64.debug min ++ ", " ++ debug_option F64.debug max ++ "]"

/-- A text that does not match, or a value that is none. -/
def non_matching (is_match : String → Bool) (column pattern : String) (idx : Nat)
    (value : Value F) : Option (Value F) :=
  match value with
  | .string text =>
    if is_match text then none
    else some (.object [("column", .string column), ("pattern", .string pattern),
      ("reason", .string "does not match pattern"), ("row", .of_nat idx), ("value", value)])
  | .null => none -- Skip nulls
  | _ =>
    some (.object [("column", .string column), ("reason", .string "non-string value"),
      ("row", .of_nat idx), ("value", value)])

/-- Validate that string column values match a regex pattern. -/
def validate_regex (column pattern : String) : ValidationResult F :=
  match libraries.regex pattern with
  | .ok is_match =>
    validate_column data column (non_matching is_match column pattern) fun count =>
      toString count ++ " values in column '" ++ column ++ "' do not match pattern '" ++ pattern ++
        "'"
  | .error e => .error ("Invalid regex pattern '" ++ pattern ++ "': " ++ e)

/-- Validate that row count is within bounds. -/
def validate_row_count (min max : Option Int) : ValidationResult F :=
  let count : Int := data.row_count
  if min.any (count < ·) then
    .failed 0 count
      ("Row count " ++ toString count ++ " is below minimum " ++ toString (min.getD 0))
  else if max.any (· < count) then
    .failed 0 count ("Row count " ++ toString count ++ " exceeds maximum " ++ toString (max.getD 0))
  else .pass count

/-- A value that is not accepted. -/
def not_accepted (column : String) (accepted : List (Value F)) (idx : Nat) (value : Value F) :
    Option (Value F) :=
  if value.is_null then none -- Skip nulls
  else if value.to_text ∈ accepted.map Value.to_text then none
  else some (.object [("accepted_values", .array accepted), ("column", .string column),
    ("row", .of_nat idx), ("value", value)])

/-- Validate that column values are in an allowed set. -/
def validate_accepted_values (column : String) (accepted : List (Value F)) : ValidationResult F :=
  validate_column data column (not_accepted column accepted) fun count =>
    toString count ++ " values in column '" ++ column ++ "' not in accepted set"

/-- The key of a row is extended by its value in a column, if that exists. -/
def push_value (row_idx : Nat) (row_key name : String) : RowM F String :=
  match data.get_column name with
  | some values => do return row_key ++ (← index values row_idx).to_text ++ "|"
  | none => return row_key

/-- Validate that there are no duplicate rows. -/
def validate_no_duplicate_rows (columns : Option (List String)) : Option (ValidationResult F) :=
  -- If no columns specified, use all columns
  let col_names := columns.getD (data.columns.map Prod.fst)
  if col_names = [] then some (.pass data.row_count)
  else finish do
    let sample := fun row_idx (_ : String) =>
      .object [("reason", .string "duplicate row"), ("row", .of_nat row_idx)]
    let duplicates ← repeated_rows (fun row_idx => col_names.foldlM (push_value data row_idx) "")
      sample data.row_count
    return duplicates.result data.row_count (toString duplicates.count ++ " duplicate rows found")

/-- The column in which reference data is provided. -/
def ref_col_key (reference_table reference_column : String) : String :=
  "__ref__" ++ reference_table ++ "__" ++ reference_column

/-- A value without a reference. -/
def orphan (column reference_table reference_column : String) (ref_set : List String) (idx : Nat)
    (value : Value F) : Option (Value F) :=
  if value.is_null then none -- Skip nulls by default
  else if value.to_text ∈ ref_set then none
  else some (.object [("column", .string column), ("reason", .string "orphan reference"),
    ("reference_column", .string reference_column), ("reference_table", .string reference_table),
    ("row", .of_nat idx), ("value", value)])

/-- Validate referential integrity - check that all values in a column exist in a reference
    table. -/
def validate_referential_integrity (column reference_table reference_column : String) :
    ValidationResult F :=
  match data.get_column column with
  | none => .column_not_found column
  | some _ =>
    match data.get_column (ref_col_key reference_table reference_column) with
    | some vals =>
      let ref_set := (vals.filter fun v => !v.is_null).map Value.to_text
      validate_column data column (orphan column reference_table reference_column ref_set)
        fun count => toString count ++ " values in column '" ++ column ++
          "' have no matching reference in '" ++ reference_table ++ "." ++ reference_column ++ "'"
    | none =>
      -- No reference data provided: a pass with a note
      { passed := true
        failed_count := some 0
        total_count := some data.row_count
        error_message := some ("Referential integrity check registered for '" ++ column ++ "." ++
          reference_table ++ "' -> '" ++ reference_table ++ "." ++ reference_column ++
          "'. Reference data must be provided by orchestrator for validation.")
        failed_samples := none }

/-- Validate schema match - check that expected columns are present. -/
def validate_schema_match (expected_columns : List String) (allow_extra_columns : Bool) :
    ValidationResult F :=
  let actual_columns := libraries.hash.order (data.columns.map Prod.fst)
  let expected_set := libraries.hash.order expected_columns.dedup
  let missing := expected_set.filter (· ∉ actual_columns)
  let extra := actual_columns.filter (· ∉ expected_set)
  let errors :=
    (if missing = [] then []
      else ["Missing columns: " ++ debug_list (missing.map libraries.debug)]) ++
    (if allow_extra_columns || extra = [] then []
      else ["Unexpected columns: " ++ debug_list (extra.map libraries.debug)])
  if errors = [] then .pass data.row_count
  else .failed errors.length data.row_count ("; ".intercalate errors)

/-- Execute a parsed check type against data. -/
def execute_check : CheckType F → Option (ValidationResult F)
  | .NotNull columns => some (validate_not_null libraries data columns)
  | .Unique columns => validate_unique libraries data columns
  | .InRange column min max => some (validate_in_range data column min max)
  | .Regex column pattern => some (validate_regex libraries data column pattern)
  | .RowCount min max => some (validate_row_count data min max)
  | .AcceptedValues column values => some (validate_accepted_values data column values)
  | .NoDuplicateRows columns => validate_no_duplicate_rows data columns
  | .Freshness _ _ => some (.error "Freshness check not yet implemented in worker")
  | .ReferentialIntegrity column reference_table reference_column =>
    some (validate_referential_integrity data column reference_table reference_column)
  | .SchemaMatch expected_columns allow_extra_columns =>
    some (validate_schema_match libraries data expected_columns allow_extra_columns)
  | .Custom name _ =>
    some (.error ("Custom check '" ++ name.getD "unnamed" ++
      "' requires user-defined validation"))

/-- Validate asset data against a check type definition. -/
def validate_check (check_type : Value F) : Option (ValidationResult F) :=
  match CheckType.deserialize check_type with
  | some parsed => execute_check libraries data parsed
  | none => some (.error ("Invalid check type definition: " ++
      libraries.invalid_check_type check_type))

end validators

end Servo.CheckValidator
