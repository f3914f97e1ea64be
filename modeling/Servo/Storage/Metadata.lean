import Mathlib.Data.List.Sort
import Servo.Storage.MetadataModels

/-! # Metadata Operations

    The operations of `PostgresStorage` on assets, workflows, executions,
    dependencies and checks. Each is one transaction under the caller's
    tenant: an error rolls it back.

    A query sees the rows that the policy of its table shows to the tenant;
    few have a condition of their own on the tenant. Constraints, foreign keys
    and cascades see all rows. PostgreSQL tests the policy's WITH CHECK clause
    first, then the CHECK constraints, then uniqueness, and foreign keys at
    the end of the statement.
-/

namespace Servo

/-! ### Statements on one table -/

section statements
variable {ρ υ : Type} {key : ρ → Uuid} {uniq : ρ → υ} [DecidableEq υ]

/-- `INSERT` of one row, after its CHECK constraints. -/
def insert_row (t : Table key uniq) (pkey unique : String) (row : ρ) :
    Except StorageError (Table key uniq) :=
  match t.insert? row with
  | some t' => .ok t'
  | none =>
    .error (unique_violation (if t.rows.any (fun r => key r = key row) then pkey else unique))

/-- `UPDATE .. WHERE id = $1`, of a row that the policy shows. -/
def update_row (t : Table key uniq) (shown : ρ → Bool) (id : Uuid) (f : ρ → ρ)
    (hf : ∀ r, key (f r) = key r) (check_violation : ρ → Option StorageError) (unique : String)
    (missing : StorageError) : Except StorageError (Table key uniq) :=
  match (t.find? id).filter shown with
  | none => .error missing
  | some row =>
    match check_violation (f row) with
    | some violation => .error violation
    | none =>
      match t.update? (fun r => key r = id) f hf with
      | some t' => .ok t'
      | none => .error (unique_violation unique)

/-- `DELETE .. WHERE id = $1`, of a row that the policy shows. -/
def delete_row (t : Table key uniq) (shown : ρ → Bool) (id : Uuid) (missing : StorageError) :
    Except StorageError (Table key uniq) :=
  match (t.find? id).filter shown with
  | none => .error missing
  | some _ => .ok (t.delete fun r => key r = id)

/-- `SELECT` of one row. -/
def fetch (rows : List ρ) (p : ρ → Bool) (missing : StorageError) : Except StorageError ρ :=
  match rows.find? p with
  | some row => .ok row
  | none => .error missing

/-- `LIMIT .. OFFSET ..`. -/
def page (rows : List ρ) (limit offset : Int) : List ρ :=
  (rows.drop offset.toNat).take limit.toNat

end statements

namespace Metadata

variable (db : Metadata) (tenant_id : TenantId)

/-! ### What the policies show -/

def visible_assets : List AssetModel :=
  (db.assets.filter fun asset => visible_to tenant_id asset.tenant_id).rows

def visible_workflows : List WorkflowModel :=
  (db.workflows.filter fun workflow => visible_to tenant_id workflow.tenant_id).rows

def visible_executions : List ExecutionModel :=
  (db.executions.filter fun execution => execution.visible_to tenant_id).rows

def visible_asset_checks : List AssetCheckModel :=
  (db.asset_checks.filter fun check => visible_to tenant_id check.tenant_id).rows

def asset_visible (id : Uuid) : Bool := (db.visible_assets tenant_id).any (·.id = id)

/-- `asset_deps_access`: both assets are visible. -/
def dependency_visible (dependency : AssetDependencyModel) : Bool :=
  db.asset_visible tenant_id dependency.upstream_asset_id &&
    db.asset_visible tenant_id dependency.downstream_asset_id

def visible_dependencies : List AssetDependencyModel :=
  (db.asset_dependencies.filter (db.dependency_visible tenant_id)).rows

/-! ### Assets -/

def create_asset (asset : AssetModel) : Except StorageError Metadata := do
  let row ← asset.new_row tenant_id
  let assets ← insert_row db.assets "assets_pkey" "assets_name_tenant_id_key" row
  return { db with assets }

def get_asset (id : Uuid) : Except StorageError AssetModel :=
  fetch (db.visible_assets tenant_id) (·.id = id) (.NotFound ("Asset " ++ id.to_string))

def get_asset_partition_config (asset_id : Uuid) : Except StorageError (Option Json) :=
  (db.get_asset tenant_id asset_id).map (·.partition_config)

def update_asset (asset : AssetModel) : Except StorageError Metadata := do
  let asset ← asset.validated
  let assets ← update_row db.assets (fun row => visible_to tenant_id row.tenant_id) asset.id
    (·.updated_to asset) (fun _ => rfl) (·.check_violation) "assets_name_tenant_id_key"
    (.NotFound ("Asset " ++ asset.id.to_string))
  return { db with assets }

/-- With the asset go its dependencies, checks and places in workflows. -/
def delete_asset (id : Uuid) : Except StorageError Metadata := do
  let assets ← delete_row db.assets (fun row => visible_to tenant_id row.tenant_id) id
    (.NotFound ("Asset " ++ id.to_string))
  return { db with
    assets
    asset_dependencies := db.asset_dependencies.delete (·.touches id)
    asset_checks := db.asset_checks.delete (·.asset_id = id)
    workflow_assets := db.workflow_assets.delete (·.asset_id = id) }

def list_assets (limit offset : Int) : Except StorageError (List AssetModel) := do
  validate_pagination_params limit offset
  return page ((db.visible_assets tenant_id).insertionSort
    (newest_first AssetModel.created_at AssetModel.id)) limit offset

/-- The assets of a workflow in the order of their positions. -/
def get_workflow_assets (workflow_id : Uuid) : List AssetModel :=
  ((db.workflow_assets.rows.filter (·.workflow_id = workflow_id)).insertionSort
    (fun a b => a.position ≤ b.position)).filterMap
    fun row => (db.visible_assets tenant_id).find? (·.id = row.asset_id)

def get_asset_by_name (name : String) : Except StorageError AssetModel :=
  fetch (db.visible_assets tenant_id) (·.name = name) (.NotFound ("Asset '" ++ name ++ "'"))

def count_assets : Nat := (db.visible_assets tenant_id).length

/-! ### Workflows -/

def create_workflow (workflow : WorkflowModel) : Except StorageError Metadata := do
  let row ← workflow.new_row tenant_id
  let workflows ← insert_row db.workflows "workflows_pkey"
    "workflows_name_tenant_id_version_key" row
  return { db with workflows }

def get_workflow (id : Uuid) : Except StorageError WorkflowModel :=
  fetch (db.visible_workflows tenant_id) (·.id = id) (.NotFound ("Workflow " ++ id.to_string))

def update_workflow (workflow : WorkflowModel) : Except StorageError Metadata := do
  let workflow ← workflow.validated
  let workflows ← update_row db.workflows (fun row => visible_to tenant_id row.tenant_id)
    workflow.id (·.updated_to workflow) (fun _ => rfl) (·.check_violation)
    "workflows_name_tenant_id_version_key" (.NotFound ("Workflow " ++ workflow.id.to_string))
  return { db with workflows }

/-- With the workflow go its executions and the positions of its assets. -/
def delete_workflow (id : Uuid) : Except StorageError Metadata := do
  let workflows ← delete_row db.workflows (fun row => visible_to tenant_id row.tenant_id) id
    (.NotFound ("Workflow " ++ id.to_string))
  return { db with
    workflows
    executions := db.executions.delete (·.workflow_id = id)
    workflow_assets := db.workflow_assets.delete (·.workflow_id = id) }

def list_workflows (limit offset : Int) : Except StorageError (List WorkflowModel) := do
  validate_pagination_params limit offset
  return page ((db.visible_workflows tenant_id).insertionSort
    (newest_first WorkflowModel.created_at WorkflowModel.id)) limit offset

def count_workflows : Nat := (db.visible_workflows tenant_id).length

/-! ### Executions -/

/-- `executions_workflow_id_fkey`. -/
def workflow_missing (workflow_id : Uuid) : Option StorageError :=
  if (db.workflows.find? workflow_id).isSome then none
  else some (foreign_key_violation "executions" "executions_workflow_id_fkey")

def create_execution (state : String) (execution : ExecutionModel) :
    Except StorageError Metadata := do
  let state ← validate_execution_state state
  let column ← tenant_column "executions" tenant_id
  let executions ← db.executions.create_execution { execution with state } column
  require (db.workflow_missing execution.workflow_id)
  return { db with executions }

def create_execution_or_get_existing (state : String) (execution : ExecutionModel) :
    Except StorageError (Metadata × Uuid × Bool) := do
  let state ← validate_execution_state state
  let column ← tenant_column "executions" tenant_id
  let (executions, id, was_created) ←
    db.executions.create_execution_or_get_existing { execution with state } column
  require (if was_created then db.workflow_missing execution.workflow_id else none)
  return ({ db with executions }, id, was_created)

def get_execution (id : Uuid) : Except StorageError ExecutionModel :=
  db.executions.get_execution id tenant_id

def update_execution (state : String) (execution : ExecutionModel) :
    Except StorageError Metadata := do
  let state ← validate_execution_state state
  let executions ← db.executions.update_execution { execution with state } tenant_id
  return { db with executions }

def delete_execution (id : Uuid) : Except StorageError Metadata := do
  let executions ← delete_row db.executions (·.visible_to tenant_id) id
    (.NotFound ("Execution " ++ id.to_string))
  return { db with executions }

def list_executions (limit offset : Int) : Except StorageError (List ExecutionModel) := do
  validate_pagination_params limit offset
  return page ((db.visible_executions tenant_id).insertionSort
    (newest_first ExecutionModel.created_at ExecutionModel.id)) limit offset

def list_workflow_executions (workflow_id : Uuid) (limit offset : Int) :
    Except StorageError (List ExecutionModel) := do
  validate_pagination_params limit offset
  let executions := (db.visible_executions tenant_id).filter (·.workflow_id = workflow_id)
  return page (executions.insertionSort
    (newest_first ExecutionModel.created_at ExecutionModel.id)) limit offset

def find_execution_by_idempotency_key (workflow_id : Uuid) (idempotency_key : String) :
    Option ExecutionModel :=
  (db.visible_executions tenant_id).find? fun execution =>
    execution.workflow_id = workflow_id && execution.idempotency_key = some idempotency_key

def count_executions : Nat := (db.visible_executions tenant_id).length

/-! ### Dependencies -/

/-- `create_asset_dependency`, with the id and the time that it takes for the new row. The
    policy's WITH CHECK clause finds both assets, so that the foreign keys hold. -/
def create_asset_dependency (id : Uuid) (now : DateTime)
    (upstream_asset_id downstream_asset_id : Uuid) (dependency_type : String) :
    Except StorageError (Metadata × Uuid) := do
  require (if upstream_asset_id = downstream_asset_id then
    some (.ValidationError "Cannot create self-referential dependency") else none)
  validate_dependency_type dependency_type
  let row : AssetDependencyModel :=
    ⟨id, upstream_asset_id, downstream_asset_id, dependency_type, now⟩
  require (if db.dependency_visible tenant_id row then none
    else some (row_security_violation "asset_dependencies"))
  let asset_dependencies ← insert_row db.asset_dependencies "asset_dependencies_pkey"
    "asset_dependencies_upstream_asset_id_downstream_asset_id_de_key" row
  return ({ db with asset_dependencies }, id)

/-- What the asset depends on. -/
def get_upstream_dependencies (asset_id : Uuid) : List AssetDependencyModel :=
  (db.visible_dependencies tenant_id).filter (·.downstream_asset_id = asset_id)

/-- What depends on the asset. -/
def get_downstream_dependencies (asset_id : Uuid) : List AssetDependencyModel :=
  (db.visible_dependencies tenant_id).filter (·.upstream_asset_id = asset_id)

def get_asset_dependencies (asset_id : Uuid) :
    List AssetDependencyModel × List AssetDependencyModel :=
  (db.get_upstream_dependencies tenant_id asset_id,
    db.get_downstream_dependencies tenant_id asset_id)

def delete_asset_dependency (id : Uuid) : Except StorageError Metadata := do
  let asset_dependencies ← delete_row db.asset_dependencies (db.dependency_visible tenant_id) id
    (.NotFound ("AssetDependency " ++ id.to_string))
  return { db with asset_dependencies }

/-- `delete_asset_dependencies_for_asset`, with the number of rows deleted. -/
def delete_asset_dependencies_for_asset (asset_id : Uuid) : Metadata × Nat :=
  ({ db with
      asset_dependencies := db.asset_dependencies.delete fun dependency =>
        db.dependency_visible tenant_id dependency && dependency.touches asset_id },
    ((db.visible_dependencies tenant_id).filter (·.touches asset_id)).length)

/-! ### Lineage -/

end Metadata

/-- The traversal of `get_asset_lineage`. -/
structure Lineage where
  visited_assets : List Uuid
  visited_deps : List (Uuid × Uuid × String)
  /-- The assets queued for the next depth. -/
  queue : List Uuid
  lineage : List AssetDependencyModel

namespace Lineage

/-- A dependency is added once, and the asset at its other end is queued once. -/
def add (next_asset : AssetDependencyModel → Uuid) (s : Lineage) (dep : AssetDependencyModel) :
    Lineage :=
  let s := if dep.unique_key ∈ s.visited_deps then s
    else { s with
      visited_deps := dep.unique_key :: s.visited_deps
      lineage := s.lineage ++ [dep] }
  if next_asset dep ∈ s.visited_assets then s
  else { s with
    visited_assets := next_asset dep :: s.visited_assets
    queue := s.queue ++ [next_asset dep] }

/-- One asset is taken from the queue. -/
def visit (dependencies_of : Uuid → List AssetDependencyModel × List AssetDependencyModel)
    (s : Lineage) (current_id : Uuid) : Lineage :=
  let s := (dependencies_of current_id).1.foldl (add (·.upstream_asset_id)) s
  (dependencies_of current_id).2.foldl (add (·.downstream_asset_id)) s

/-- The queue is first in, first out: what is queued at one depth is all taken from it before
    the next depth. -/
def traverse (dependencies_of : Uuid → List AssetDependencyModel × List AssetDependencyModel) :
    Nat → Lineage → Lineage
  | 0, s => s
  | max_depth + 1, s =>
    if s.queue = [] then s
    else traverse dependencies_of max_depth
      (s.queue.foldl (visit dependencies_of) { s with queue := [] })

end Lineage

namespace Metadata

variable (db : Metadata) (tenant_id : TenantId)

def get_asset_lineage (asset_id : Uuid) (max_depth : Nat) : List AssetDependencyModel :=
  (Lineage.traverse (db.get_asset_dependencies tenant_id) max_depth
    ⟨[asset_id], [], [asset_id], []⟩).lineage

/-! ### Checks -/

/-- `asset_checks_asset_id_fkey`. -/
def asset_missing (asset_id : Uuid) : Option StorageError :=
  if (db.assets.find? asset_id).isSome then none
  else some (foreign_key_violation "asset_checks" "asset_checks_asset_id_fkey")

def create_asset_check (check : AssetCheckModel) : Except StorageError Metadata := do
  let row ← check.new_row tenant_id
  let asset_checks ←
    insert_row db.asset_checks "asset_checks_pkey" "asset_checks_asset_id_name_key" row
  require (db.asset_missing row.asset_id)
  return { db with asset_checks }

def get_asset_check (id : Uuid) : Except StorageError AssetCheckModel :=
  fetch (db.visible_asset_checks tenant_id) (·.id = id)
    (.NotFound ("Asset check " ++ id.to_string))

def list_asset_checks (asset_id : Uuid) (enabled_only : Bool) : List AssetCheckModel :=
  ((db.visible_asset_checks tenant_id).filter fun check =>
    check.asset_id = asset_id && (!enabled_only || check.enabled)).insertionSort
    fun a b => a.created_at ≤ b.created_at

def update_asset_check (check : AssetCheckModel) : Except StorageError Metadata := do
  let check ← check.validated
  let asset_checks ← update_row db.asset_checks (fun row => visible_to tenant_id row.tenant_id)
    check.id (·.updated_to check) (fun _ => rfl) (fun _ => none) "asset_checks_asset_id_name_key"
    (.NotFound ("Asset check " ++ check.id.to_string))
  return { db with asset_checks }

def delete_asset_check (id : Uuid) : Except StorageError Metadata := do
  let asset_checks ← delete_row db.asset_checks (fun row => visible_to tenant_id row.tenant_id) id
    (.NotFound ("Asset check " ++ id.to_string))
  return { db with asset_checks }

end Metadata

end Servo
