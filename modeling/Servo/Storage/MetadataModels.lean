import Servo.Core.Json
import Servo.Framework.RowSecurity
import Servo.Storage.Validation

/-! # Rows of the Metadata Tables

    The tables of assets, workflows, dependencies and checks, after
    migrations 001 to 014, next to `executions`. Their secondary keys are the
    UNIQUE constraints; a NULL tenant differs from every other, as in SQL.

    * VARCHAR columns have a length, and what is written to them is coerced
      by `columns`: spaces at the end are cut, anything else is an error.
    * CHECK constraints are tested when a row is written; those which the
      code's own validation implies are left out.
    * Foreign keys are the business of the operations, which see all tables.
-/

namespace Servo

/-! ### Errors of the database -/

def unique_violation (constraint : String) : StorageError :=
  .AlreadyExists ("duplicate key value violates unique constraint \"" ++ constraint ++ "\"")

def foreign_key_violation (relation constraint : String) : StorageError :=
  .NotFound ("insert or update on table \"" ++ relation ++
    "\" violates foreign key constraint \"" ++ constraint ++ "\"")

def check_constraint_violation (relation constraint : String) : StorageError :=
  .ValidationError ("Constraint violation: new row for relation \"" ++ relation ++
    "\" violates check constraint \"" ++ constraint ++ "\"")

def row_security_violation (relation : String) : StorageError :=
  .Database ("error returned from database: new row violates row-level security policy for " ++
    "table \"" ++ relation ++ "\"")

/-- A constraint that is violated is an error. -/
def require : Option StorageError → Except StorageError Unit
  | some violation => .error violation
  | none => .ok ()

/-! ### Columns -/

/-- The text that a column VARCHAR(n) takes. -/
def varchar (n : Nat) (text : String) : Except StorageError String :=
  if text.length ≤ n then .ok text
  else if (text.toList.drop n).all (· = ' ') then .ok (String.ofList (text.toList.take n))
  else .error (.Database ("error returned from database: value too long for type " ++
    "character varying(" ++ toString n ++ ")"))

/-- The same for a column that may be NULL. -/
def nullable_varchar (n : Nat) : Option String → Except StorageError (Option String)
  | none => .ok none
  | some text => (varchar n text).map some

/-- A new row's `tenant_id`, under the WITH CHECK clause of the table's policy: a text that
    does not fit would be another tenant's. -/
def tenant_column (relation : String) (tenant_id : TenantId) : Except StorageError TenantId := do
  let column ← varchar 255 tenant_id
  if column = tenant_id then return column else throw (row_security_violation relation)

/-- The policies show the rows of the tenant and those without one. -/
def visible_to (tenant_id : TenantId) (owner : Option TenantId) : Bool :=
  owner = none || owner = some tenant_id

/-- `ORDER BY created_at DESC, id DESC`. -/
def newest_first {ρ : Type} (created_at : ρ → DateTime) (id : ρ → Uuid) (a b : ρ) : Prop :=
  created_at b < created_at a ∨ created_at b = created_at a ∧ (id b).toNat ≤ (id a).toNat

instance {ρ : Type} (created_at : ρ → DateTime) (id : ρ → Uuid) :
    DecidableRel (newest_first created_at id) := fun a b =>
  inferInstanceAs (Decidable (created_at b < created_at a ∨
    created_at b = created_at a ∧ (id b).toNat ≤ (id a).toNat))

/-! ### Assets -/

/-- `AssetModel`, a row of `assets`. -/
structure AssetModel where
  id : Uuid
  name : String
  description : Option String
  asset_type : String
  owner : Option String
  tags : List String
  partition_config : Option Json
  compute_fn_module : Option String
  compute_fn_function : Option String
  tenant_id : Option TenantId
  created_at : DateTime
  updated_at : DateTime
  deriving DecidableEq

namespace AssetModel

/-- UNIQUE(name, tenant_id). -/
def unique_key (asset : AssetModel) : (String × TenantId) ⊕ Uuid :=
  match asset.tenant_id with
  | some tenant_id => .inl (asset.name, tenant_id)
  | none => .inr asset.id

/-- The column values that an INSERT or an UPDATE of the model writes. -/
def columns (asset : AssetModel) : Except StorageError AssetModel := do
  let name ← varchar 255 asset.name
  let asset_type ← varchar 100 asset.asset_type
  let owner ← nullable_varchar 255 asset.owner
  let compute_fn_module ← nullable_varchar 255 asset.compute_fn_module
  let compute_fn_function ← nullable_varchar 255 asset.compute_fn_function
  return { asset with name, asset_type, owner, compute_fn_module, compute_fn_function }

/-- The CHECK constraint that the row violates. -/
def check_violation (asset : AssetModel) : Option StorageError :=
  if asset.updated_at < asset.created_at then
    some (check_constraint_violation "assets" "assets_updated_after_created")
  else none

/-- What is written for the model, once it has passed the validation. -/
def validated (asset : AssetModel) : Except StorageError AssetModel := do
  validate_non_empty_string asset.name "Asset name"
  validate_non_empty_string asset.asset_type "Asset type"
  asset.columns

/-- The row that `create_asset` inserts. -/
def new_row (asset : AssetModel) (tenant_id : TenantId) : Except StorageError AssetModel := do
  let asset ← asset.validated
  let column ← tenant_column "assets" tenant_id
  require asset.check_violation
  return { asset with tenant_id := some column }

/-- SET clause of `update_asset`. -/
def updated_to (row asset : AssetModel) : AssetModel :=
  { row with
    name := asset.name
    description := asset.description
    asset_type := asset.asset_type
    owner := asset.owner
    tags := asset.tags
    partition_config := asset.partition_config
    compute_fn_module := asset.compute_fn_module
    compute_fn_function := asset.compute_fn_function
    updated_at := asset.updated_at }

end AssetModel

/-- `assets`. -/
abbrev Assets : Type := Table AssetModel.id AssetModel.unique_key

/-! ### Workflows -/

/-- `WorkflowModel`, a row of `workflows`. -/
structure WorkflowModel where
  id : Uuid
  name : String
  description : Option String
  owner : Option String
  tags : List String
  tenant_id : Option TenantId
  version : Int
  schedule_cron : Option String
  schedule_timezone : Option String
  schedule_enabled : Option Bool
  scheduler_job_name : Option String
  last_scheduled_run : Option DateTime
  next_scheduled_run : Option DateTime
  created_at : DateTime
  updated_at : DateTime
  deriving DecidableEq

namespace WorkflowModel

/-- UNIQUE(name, tenant_id, version). -/
def unique_key (workflow : WorkflowModel) : (String × TenantId × Int) ⊕ Uuid :=
  match workflow.tenant_id with
  | some tenant_id => .inl (workflow.name, tenant_id, workflow.version)
  | none => .inr workflow.id

/-- The column values that an INSERT or an UPDATE of the model writes. -/
def columns (workflow : WorkflowModel) : Except StorageError WorkflowModel := do
  let name ← varchar 255 workflow.name
  let owner ← nullable_varchar 255 workflow.owner
  let schedule_cron ← nullable_varchar 255 workflow.schedule_cron
  let schedule_timezone ← nullable_varchar 50 workflow.schedule_timezone
  let scheduler_job_name ← nullable_varchar 255 workflow.scheduler_job_name
  return { workflow with name, owner, schedule_cron, schedule_timezone, scheduler_job_name }

/-- The CHECK constraint that the row violates, in the order of their names. -/
def check_violation (workflow : WorkflowModel) : Option StorageError :=
  if workflow.updated_at < workflow.created_at then
    some (check_constraint_violation "workflows" "workflows_updated_after_created")
  else if workflow.version ≤ 0 then
    some (check_constraint_violation "workflows" "workflows_version_positive")
  else none

/-- What is written for the model, once it has passed the validation. -/
def validated (workflow : WorkflowModel) : Except StorageError WorkflowModel := do
  validate_non_empty_string workflow.name "Workflow name"
  workflow.columns

/-- The row that `create_workflow` inserts. -/
def new_row (workflow : WorkflowModel) (tenant_id : TenantId) :
    Except StorageError WorkflowModel := do
  let workflow ← workflow.validated
  let column ← tenant_column "workflows" tenant_id
  require workflow.check_violation
  return { workflow with tenant_id := some column }

/-- SET clause of `update_workflow`. -/
def updated_to (row workflow : WorkflowModel) : WorkflowModel :=
  { row with
    name := workflow.name
    description := workflow.description
    owner := workflow.owner
    tags := workflow.tags
    version := workflow.version
    schedule_cron := workflow.schedule_cron
    schedule_timezone := workflow.schedule_timezone
    schedule_enabled := workflow.schedule_enabled
    scheduler_job_name := workflow.scheduler_job_name
    last_scheduled_run := workflow.last_scheduled_run
    next_scheduled_run := workflow.next_scheduled_run
    updated_at := workflow.updated_at }

end WorkflowModel

/-- `workflows`. -/
abbrev Workflows : Type := Table WorkflowModel.id WorkflowModel.unique_key

/-! ### Dependencies and checks of assets -/

/-- `AssetDependencyModel`, a row of `asset_dependencies`. -/
structure AssetDependencyModel where
  id : Uuid
  upstream_asset_id : Uuid
  downstream_asset_id : Uuid
  dependency_type : String
  created_at : DateTime
  deriving DecidableEq

namespace AssetDependencyModel

-- Membership in a list of keys is decided by one instance
instance : LawfulBEq (Uuid × Uuid × String) := inferInstance

/-- UNIQUE(upstream_asset_id, downstream_asset_id, dependency_type). -/
def unique_key (dependency : AssetDependencyModel) : Uuid × Uuid × String :=
  (dependency.upstream_asset_id, dependency.downstream_asset_id, dependency.dependency_type)

/-- Does the dependency start or end at the asset? -/
def touches (asset_id : Uuid) (dependency : AssetDependencyModel) : Bool :=
  dependency.upstream_asset_id = asset_id || dependency.downstream_asset_id = asset_id

end AssetDependencyModel

/-- `asset_dependencies`. -/
abbrev AssetDependencies : Type :=
  Table AssetDependencyModel.id AssetDependencyModel.unique_key

/-- `AssetCheckModel`, a row of `asset_checks`. -/
structure AssetCheckModel where
  id : Uuid
  name : String
  description : Option String
  asset_id : Uuid
  check_type : Json
  severity : String
  blocking : Bool
  enabled : Bool
  tags : List String
  owner : Option String
  tenant_id : Option TenantId
  created_at : DateTime
  updated_at : DateTime
  deriving DecidableEq

namespace AssetCheckModel

/-- UNIQUE(asset_id, name). -/
def unique_key (check : AssetCheckModel) : Uuid × String := (check.asset_id, check.name)

/-- The column values that an INSERT or an UPDATE of the model writes. -/
def columns (check : AssetCheckModel) : Except StorageError AssetCheckModel := do
  let name ← varchar 255 check.name
  let owner ← nullable_varchar 255 check.owner
  return { check with name, owner }

/-- What is written for the model, once it has passed the validation. -/
def validated (check : AssetCheckModel) : Except StorageError AssetCheckModel := do
  validate_non_empty_string check.name "Check name"
  validate_check_severity check.severity
  check.columns

/-- The row that `create_asset_check` inserts. -/
def new_row (check : AssetCheckModel) (tenant_id : TenantId) :
    Except StorageError AssetCheckModel := do
  let check ← check.validated
  let column ← tenant_column "asset_checks" tenant_id
  return { check with tenant_id := some column }

/-- SET clause of `update_asset_check`. -/
def updated_to (row check : AssetCheckModel) : AssetCheckModel :=
  { row with
    name := check.name
    description := check.description
    check_type := check.check_type
    severity := check.severity
    blocking := check.blocking
    enabled := check.enabled
    tags := check.tags
    owner := check.owner
    updated_at := check.updated_at }

end AssetCheckModel

/-- `asset_checks`. -/
abbrev AssetChecks : Type := Table AssetCheckModel.id AssetCheckModel.unique_key

/-! ### Positions of assets in workflows -/

/-- A row of `workflow_assets`. -/
structure WorkflowAssetModel where
  id : Uuid
  workflow_id : Uuid
  asset_id : Uuid
  position : Int
  deriving DecidableEq

/-- UNIQUE(workflow_id, position). -/
def WorkflowAssetModel.unique_key (row : WorkflowAssetModel) : Uuid × Int :=
  (row.workflow_id, row.position)

/-- `workflow_assets`, without UNIQUE(workflow_id, asset_id): no operation inserts into it. -/
abbrev WorkflowAssets : Type := Table WorkflowAssetModel.id WorkflowAssetModel.unique_key

/-! ### The tables -/

/-- The metadata part of the database. -/
structure Metadata where
  assets : Assets
  workflows : Workflows
  executions : Executions
  asset_dependencies : AssetDependencies
  asset_checks : AssetChecks
  workflow_assets : WorkflowAssets

/-- The tables after the migrations. -/
def Metadata.empty : Metadata :=
  ⟨Table.empty _ _, Table.empty _ _, Table.empty _ _, Table.empty _ _, Table.empty _ _,
    Table.empty _ _⟩

end Servo
