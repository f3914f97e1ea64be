import Servo.Framework.Fallible
import Servo.Storage.MetadataModels

/-! # Workflow Definitions

    What `servo deploy` reads from a file, and what it tests of it before it
    calls the storage: names and types are there, names are not repeated,
    dependencies stay within the workflow. Types of dependencies are not
    among the tests.
-/

namespace Servo

/-- `anyhow::Error`: the messages of its chain, the outermost context first. -/
abbrev DeployError : Type := List String

/-- `ScheduleDefinition`. -/
structure ScheduleDefinition where
  cron : String
  timezone : String
  enabled : Option Bool
  deriving DecidableEq

/-- `DependencyDefinition`. -/
structure DependencyDefinition where
  /-- The name of the upstream asset. -/
  asset : String
  dependency_type : String
  deriving DecidableEq

/-- `PartitionDefinition`. -/
structure PartitionDefinition where
  partition_type : String
  key : String
  expression : Option String
  lower_bound : Option String
  upper_bound : Option String
  deriving DecidableEq

/-- `AssetDefinition`. -/
structure AssetDefinition where
  name : String
  asset_type : String
  description : Option String
  owner : Option String
  tags : List String
  dependencies : List DependencyDefinition
  partition : Option PartitionDefinition
  compute_fn_module : Option String
  compute_fn_function : Option String
  deriving DecidableEq

/-- `WorkflowDefinition`. -/
structure WorkflowDefinition where
  name : String
  description : Option String
  owner : Option String
  tags : List String
  schedule : Option ScheduleDefinition
  assets : List AssetDefinition
  deriving DecidableEq

/-- `daily_etl`, from the documentation of the command. -/
def daily_etl : WorkflowDefinition where
  name := "daily_etl"
  description := some "Daily ETL workflow for sales data"
  owner := some "data_team"
  tags := ["etl", "daily"]
  schedule := none
  assets :=
    [{ name := "raw_sales", asset_type := "table"
       description := some "Raw sales data from source systems"
       owner := none, tags := [], dependencies := []
       partition := some ⟨"daily", "date", none, none, none⟩
       compute_fn_module := none, compute_fn_function := none },
     { name := "transformed_sales", asset_type := "table"
       description := some "Cleaned and transformed sales data"
       owner := none, tags := [], dependencies := [⟨"raw_sales", "data"⟩]
       partition := some ⟨"daily", "date", none, none, none⟩
       compute_fn_module := none, compute_fn_function := none },
     { name := "sales_report", asset_type := "report"
       description := some "Daily sales summary report"
       owner := none, tags := [], dependencies := [⟨"transformed_sales", "data"⟩]
       partition := none, compute_fn_module := none, compute_fn_function := none }]

/-! ### Partitions as JSON -/

/-- `str::to_lowercase`, up to characters whose lower-case form has no ASCII letter. -/
def to_lowercase (text : String) : String :=
  -- U+212A, the sign of the unit kelvin, is the one such character beside the capitals
  text.map fun c => if c.toNat = 0x212A then 'k' else c.toLower

namespace PartitionDefinition

/-- `json!({ "Time": { "granularity": .. } })`. -/
def time (granularity : String) : Json :=
  json_object [("Time", json_object [("granularity", json_string granularity)])]

def to_partition_config_json (partition : PartitionDefinition) : Json :=
  let kind := to_lowercase partition.partition_type
  let partition_type :=
    if kind = "daily" then time "Daily"
    else if kind = "hourly" then time "Hourly"
    else if kind = "weekly" then time "Weekly"
    else if kind = "monthly" then time "Monthly"
    else if kind = "yearly" then time "Yearly"
    else if kind = "custom" then
      json_object [("Custom", json_object
        [("expression", json_string (partition.expression.getD ""))])]
    else if kind = "range" then
      json_object [("Range", json_object
        [("lower_bound", json_string (partition.lower_bound.getD "")),
          ("upper_bound", json_string (partition.upper_bound.getD ""))])]
    else time "Daily"
  json_object
    [("partition_key", json_string partition.key), ("partition_type", partition_type)]

end PartitionDefinition

/-! ### Validation -/

/-- What the crates `cron` and `chrono_tz` parse. -/
structure ScheduleParsers where
  /-- Is it an expression for `cron::Schedule`, whose first field is the seconds? -/
  cron : String → Bool
  /-- Is it the name of a `chrono_tz::Tz`? -/
  timezone : String → Bool

/-- `anyhow::bail!`. -/
def bail {α : Type} (message : String) : Except DeployError α := .error [message]

def validate_schedule (parsers : ScheduleParsers) (schedule : ScheduleDefinition) :
    Except DeployError Unit :=
  if parsers.cron ("0 " ++ schedule.cron) = false then
    bail ("Invalid cron expression '" ++ schedule.cron ++
      "'. Expected format: 'minute hour day month weekday' (e.g., '0 2 * * *' for daily at 2 AM)")
  else if parsers.timezone schedule.timezone = false then
    bail ("Invalid timezone '" ++ schedule.timezone ++
      "'. Use IANA timezone format (e.g., 'America/New_York', 'UTC', 'Europe/London')")
  else .ok ()

/-- The first loop of `validate_workflow_definition`, which returns the names it has met. -/
def validate_assets (asset_names : List String) : List AssetDefinition →
    Except DeployError (List String)
  | [] => .ok asset_names
  | asset :: assets =>
    if asset.name = "" then bail "Asset name cannot be empty"
    else if asset.name ∈ asset_names then bail ("Duplicate asset name: '" ++ asset.name ++ "'")
    else if asset.asset_type = "" then bail ("Asset '" ++ asset.name ++ "' must have a type")
    else validate_assets (asset.name :: asset_names) assets

/-- Text of an error of the validation and of the second pass of `deploy_workflow`. -/
def not_defined (asset dependency : String) : String :=
  "Asset '" ++ asset ++ "' depends on '" ++ dependency ++ "' which is not defined in this workflow"

/-- The dependencies of a definition, each with the name of the asset that has it, in the order
    in which its loops come to them. -/
def WorkflowDefinition.edges (definition : WorkflowDefinition) :
    List (String × DependencyDefinition) :=
  definition.assets.flatMap fun asset => asset.dependencies.map fun dep => (asset.name, dep)

/-- The second loop: all dependencies are assets of the workflow. -/
def validate_references (asset_names : List String) : List (String × DependencyDefinition) →
    Except DeployError Unit
  | [] => .ok ()
  | (asset, dep) :: edges =>
    if dep.asset ∈ asset_names then validate_references asset_names edges
    else bail (not_defined asset dep.asset)

/-- The third loop: no asset depends on itself. -/
def validate_no_self_dependency : List (String × DependencyDefinition) → Except DeployError Unit
  | [] => .ok ()
  | (asset, dep) :: edges =>
    if dep.asset = asset then bail ("Asset '" ++ asset ++ "' cannot depend on itself")
    else validate_no_self_dependency edges

def validate_workflow_definition (parsers : ScheduleParsers) (definition : WorkflowDefinition) :
    Except DeployError Unit := do
  let () ← if definition.name = "" then bail "Workflow name cannot be empty" else .ok ()
  let () ← match definition.schedule with
    | some schedule => validate_schedule parsers schedule
    | none => .ok ()
  let asset_names ← validate_assets [] definition.assets
  validate_references asset_names definition.edges
  validate_no_self_dependency definition.edges

/-- `parse_workflow_file`, from what the file gives: its definition, or the error met when it
    was looked up, read or parsed. -/
def parse_workflow_file (parsers : ScheduleParsers)
    (workflow_file : Except DeployError WorkflowDefinition) :
    Except DeployError WorkflowDefinition := do
  let definition ← workflow_file
  validate_workflow_definition parsers definition
  return definition

/-- What is accepted is what the file says. -/
theorem parse_workflow_file_eq_ok_iff {parsers : ScheduleParsers}
    {workflow_file : Except DeployError WorkflowDefinition} {definition : WorkflowDefinition} :
    parse_workflow_file parsers workflow_file = .ok definition ↔
      workflow_file = .ok definition ∧
        validate_workflow_definition parsers definition = .ok () := by
  unfold parse_workflow_file
  simp only [Fallible.bind_eq_ok_iff]
  constructor
  · intro ⟨_, hfile, u, hvalid, h⟩
    cases h
    exact ⟨hfile, hvalid⟩
  · intro ⟨hfile, hvalid⟩
    exact ⟨definition, hfile, (), hvalid, rfl⟩

end Servo
