import Servo.Core.Value

/-! # Data Quality Checks

    The types of checks and their JSON, severity, outcome and the results of
    checks, and which results block. The database and the Python SDK hold
    outcome and severity as texts; `of_text` reads them.
-/

namespace Servo.Quality

/-- Types of data quality checks that can be applied to assets. -/
inductive CheckType (F : Type) where
  /-- Column(s) cannot contain null values. -/
  | NotNull (columns : List String)
  /-- Column values must be unique (no duplicates). -/
  | Unique (columns : List String)
  /-- Numeric column values must be within a specified range. -/
  | InRange (column : String) (min max : Option F)
  /-- String column values must match a regular expression. -/
  | Regex (column pattern : String)
  /-- Table row count must be within specified bounds. -/
  | RowCount (min max : Option Int64)
  /-- Data must have been updated within a specified time window. -/
  | Freshness (timestamp_column : String) (max_age_seconds : UInt64)
  /-- Column values must be one of a predefined set. -/
  | AcceptedValues (column : String) (values : List (Value F))
  /-- Custom check with user-defined logic. -/
  | Custom (name description : String)
  /-- All values in column must exist in a reference table. -/
  | ReferentialIntegrity (column reference_table reference_column : String)
  /-- Schema must match expected structure. -/
  | SchemaMatch (expected_columns : List String) (allow_extra_columns : Bool)

namespace CheckType
variable {F : Type}

/-- Get the check type name. It is the tag in the JSON as well. -/
def type_name : CheckType F → String
  | .NotNull _ => "not_null"
  | .Unique _ => "unique"
  | .InRange _ _ _ => "in_range"
  | .Regex _ _ => "regex"
  | .RowCount _ _ => "row_count"
  | .Freshness _ _ => "freshness"
  | .AcceptedValues _ _ => "accepted_values"
  | .Custom _ _ => "custom"
  | .ReferentialIntegrity _ _ _ => "referential_integrity"
  | .SchemaMatch _ _ => "schema_match"

/-- The JSON of a list of strings. -/
def strings (texts : List String) : Value F := .array (texts.map .string)

/-- The tag. -/
def tag (check_type : CheckType F) : String × Value F := ("type", .string check_type.type_name)

/-- `serde_json::to_value`, which has the members in the order of their names. -/
def to_value [F64 F] (check_type : CheckType F) : Value F :=
  .object <|
    match check_type with
    | .NotNull columns => [("columns", strings columns), check_type.tag]
    | .Unique columns => [("columns", strings columns), check_type.tag]
    | .InRange column min max =>
      [("column", .string column), ("max", .of_option .of_f64 max),
        ("min", .of_option .of_f64 min), check_type.tag]
    | .Regex column pattern =>
      [("column", .string column), ("pattern", .string pattern), check_type.tag]
    | .RowCount min max =>
      [("max", .of_option (fun n => .number (.int n.toInt)) max),
        ("min", .of_option (fun n => .number (.int n.toInt)) min), check_type.tag]
    | .Freshness timestamp_column max_age_seconds =>
      [("max_age_seconds", .of_nat max_age_seconds.toNat),
        ("timestamp_column", .string timestamp_column), check_type.tag]
    | .AcceptedValues column values =>
      [("column", .string column), check_type.tag, ("values", .array values)]
    | .Custom name description =>
      [("description", .string description), ("name", .string name), check_type.tag]
    | .ReferentialIntegrity column reference_table reference_column =>
      [("column", .string column), ("reference_column", .string reference_column),
        ("reference_table", .string reference_table), check_type.tag]
    | .SchemaMatch expected_columns allow_extra_columns =>
      [("allow_extra_columns", .bool allow_extra_columns),
        ("expected_columns", strings expected_columns), check_type.tag]

end CheckType

/-- Severity level for check failures. -/
inductive CheckSeverity where
  /-- Informational - logged but doesn't affect workflow. -/
  | Info
  /-- Warning - logged prominently, may trigger alerts, but workflow continues. -/
  | Warning
  /-- Error - blocks downstream execution if blocking=true. -/
  | Error
  deriving DecidableEq

namespace CheckSeverity

/-- Returns true if this severity level can block workflow execution. -/
def can_block : CheckSeverity → Bool
  | .Error => true
  | _ => false

def to_text : CheckSeverity → String
  | .Info => "info"
  | .Warning => "warning"
  | .Error => "error"

def of_text (text : String) : Option CheckSeverity :=
  if text = "info" then some .Info
  else if text = "warning" then some .Warning
  else if text = "error" then some .Error
  else none

theorem of_to_text (severity : CheckSeverity) : of_text severity.to_text = some severity := by
  cases severity <;> rfl

end CheckSeverity

/-- Outcome of a check execution. -/
inductive CheckOutcome where
  | Passed
  | Failed
  /-- Check was skipped (e.g., check disabled or upstream failed). -/
  | Skipped
  /-- Check execution itself errored (not a data quality failure). -/
  | Error
  deriving DecidableEq

namespace CheckOutcome

/-- Returns true if the check failed or errored. -/
def is_failure : CheckOutcome → Bool
  | .Failed => true
  | .Error => true
  | _ => false

def to_text : CheckOutcome → String
  | .Passed => "passed"
  | .Failed => "failed"
  | .Skipped => "skipped"
  | .Error => "error"

def of_text (text : String) : Option CheckOutcome :=
  if text = "passed" then some .Passed
  else if text = "failed" then some .Failed
  else if text = "skipped" then some .Skipped
  else if text = "error" then some .Error
  else none

theorem of_to_text (outcome : CheckOutcome) : of_text outcome.to_text = some outcome := by
  cases outcome <;> rfl

end CheckOutcome

/-- `CheckResult`, as far as it decides whether the run is blocked. -/
structure CheckResult where
  check_id : Uuid
  outcome : CheckOutcome
  severity : CheckSeverity
  blocking : Bool
  deriving DecidableEq

/-- Returns true if this result should block downstream execution. -/
def CheckResult.should_block (result : CheckResult) : Bool :=
  result.blocking && result.outcome.is_failure && result.severity.can_block

/-- `has_blocking_failures` of the summary that `from_results` makes. -/
def has_blocking_failures (results : List CheckResult) : Bool :=
  results.foldl (fun blocked result => if result.should_block then true else blocked) false

theorem has_blocking_failures_iff {results : List CheckResult} :
    has_blocking_failures results = true ↔ ∃ result ∈ results, result.should_block = true := by
  have hfold : ∀ (results : List CheckResult) (blocked : Bool),
      results.foldl (fun blocked result => if result.should_block then true else blocked) blocked =
        true ↔ blocked = true ∨ ∃ result ∈ results, result.should_block = true := by
    intro results
    induction results with
    | nil => simp
    | cons result results ih =>
      intro blocked
      rw [List.foldl_cons, ih]
      cases hblock : result.should_block <;> simp [hblock]
  have hresults := hfold results false
  rwa [or_iff_right (by decide)] at hresults

/-- The properties of `CheckResult` in the Python SDK. -/
def PythonCheckResult.should_block (blocking : Bool) (status : CheckOutcome)
    (severity : CheckSeverity) : Bool :=
  blocking && (status = .Failed || status = .Error) && severity = .Error

theorem python_should_block_eq (result : CheckResult) :
    PythonCheckResult.should_block result.blocking result.outcome result.severity =
      result.should_block := by
  obtain ⟨check_id, outcome, severity, blocking⟩ := result
  cases blocking <;> cases outcome <;> cases severity <;> rfl

end Servo.Quality
