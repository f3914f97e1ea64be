import Servo.Storage.Metadata

/-! # Calls on the Metadata Tables

    The operations as the calls of one interface, each made under a tenant,
    with what they return; and what a call of a tenant can do to the tables.
    Everything that is shown of the tables later is a case analysis over
    `Change`.
-/

namespace Servo

/-! ### Calls -/

/-- An operation with its arguments. `create_asset_dependency` takes the id and the time of
    the new row, which the code draws itself. -/
inductive MetadataOp where
  | create_asset (asset : AssetModel)
  | get_asset (id : Uuid)
  | get_asset_partition_config (asset_id : Uuid)
  | update_asset (asset : AssetModel)
  | delete_asset (id : Uuid)
  | list_assets (limit offset : Int)
  | get_workflow_assets (workflow_id : Uuid)
  | get_asset_by_name (name : String)
  | count_assets
  | create_workflow (workflow : WorkflowModel)
  | get_workflow (id : Uuid)
  | update_workflow (workflow : WorkflowModel)
  | delete_workflow (id : Uuid)
  | list_workflows (limit offset : Int)
  | count_workflows
  | create_execution (state : String) (execution : ExecutionModel)
  | create_execution_or_get_existing (state : String) (execution : ExecutionModel)
  | get_execution (id : Uuid)
  | update_execution (state : String) (execution : ExecutionModel)
  | delete_execution (id : Uuid)
  | list_executions (limit offset : Int)
  | list_workflow_executions (workflow_id : Uuid) (limit offset : Int)
  | find_execution_by_idempotency_key (workflow_id : Uuid) (idempotency_key : String)
  | count_executions
  | create_asset_dependency (id : Uuid) (now : DateTime)
      (upstream_asset_id downstream_asset_id : Uuid) (dependency_type : String)
  | get_upstream_dependencies (asset_id : Uuid)
  | get_downstream_dependencies (asset_id : Uuid)
  | get_asset_dependencies (asset_id : Uuid)
  | delete_asset_dependency (id : Uuid)
  | delete_asset_dependencies_for_asset (asset_id : Uuid)
  | get_asset_lineage (asset_id : Uuid) (max_depth : Nat)
  | create_asset_check (check : AssetCheckModel)
  | get_asset_check (id : Uuid)
  | list_asset_checks (asset_id : Uuid) (enabled_only : Bool)
  | update_asset_check (check : AssetCheckModel)
  | delete_asset_check (id : Uuid)

/-- What the operations return. -/
inductive MetadataReply where
  | done
  | asset (asset : AssetModel)
  | partition_config (config : Option Json)
  | assets (assets : List AssetModel)
  | workflow (workflow : WorkflowModel)
  | workflows (workflows : List WorkflowModel)
  | created_or_existing (id : Uuid) (was_created : Bool)
  | execution (execution : ExecutionModel)
  | executions (executions : List ExecutionModel)
  | found (execution : Option ExecutionModel)
  | created (id : Uuid)
  | dependencies (dependencies : List AssetDependencyModel)
  | both_dependencies (upstream downstream : List AssetDependencyModel)
  | check (check : AssetCheckModel)
  | checks (checks : List AssetCheckModel)
  | count (count : Nat)
  deriving DecidableEq

namespace Metadata

/-- `with_tenant_context`: commit on success, roll back on error. -/
def commit (db : Metadata) (outcome : Except StorageError (Metadata × MetadataReply)) :
    Metadata × Except StorageError MetadataReply :=
  match outcome with
  | .ok (db', reply) => (db', .ok reply)
  | .error e => (db, .error e)

/-- A write that returns nothing. -/
def done (outcome : Except StorageError Metadata) :
    Except StorageError (Metadata × MetadataReply) :=
  outcome.map fun db' => (db', .done)

/-- An operation of a tenant, up to the end of its transaction. -/
def perform (db : Metadata) (tenant_id : TenantId) :
    MetadataOp → Except StorageError (Metadata × MetadataReply)
  | .create_asset asset => done (db.create_asset tenant_id asset)
  | .get_asset id => (db.get_asset tenant_id id).map fun asset => (db, .asset asset)
  | .get_asset_partition_config asset_id =>
    (db.get_asset_partition_config tenant_id asset_id).map fun c => (db, .partition_config c)
  | .update_asset asset => done (db.update_asset tenant_id asset)
  | .delete_asset id => done (db.delete_asset tenant_id id)
  | .list_assets limit offset =>
    (db.list_assets tenant_id limit offset).map fun assets => (db, .assets assets)
  | .get_workflow_assets workflow_id =>
    .ok (db, .assets (db.get_workflow_assets tenant_id workflow_id))
  | .get_asset_by_name name =>
    (db.get_asset_by_name tenant_id name).map fun asset => (db, .asset asset)
  | .count_assets => .ok (db, .count (db.count_assets tenant_id))
  | .create_workflow workflow => done (db.create_workflow tenant_id workflow)
  | .get_workflow id =>
    (db.get_workflow tenant_id id).map fun workflow => (db, .workflow workflow)
  | .update_workflow workflow => done (db.update_workflow tenant_id workflow)
  | .delete_workflow id => done (db.delete_workflow tenant_id id)
  | .list_workflows limit offset =>
    (db.list_workflows tenant_id limit offset).map fun workflows => (db, .workflows workflows)
  | .count_workflows => .ok (db, .count (db.count_workflows tenant_id))
  | .create_execution state execution => done (db.create_execution tenant_id state execution)
  | .create_execution_or_get_existing state execution =>
    (db.create_execution_or_get_existing tenant_id state execution).map fun outcome =>
      (outcome.1, .created_or_existing outcome.2.1 outcome.2.2)
  | .get_execution id =>
    (db.get_execution tenant_id id).map fun execution => (db, .execution execution)
  | .update_execution state execution => done (db.update_execution tenant_id state execution)
  | .delete_execution id => done (db.delete_execution tenant_id id)
  | .list_executions limit offset =>
    (db.list_executions tenant_id limit offset).map fun executions => (db, .executions executions)
  | .list_workflow_executions workflow_id limit offset =>
    (db.list_workflow_executions tenant_id workflow_id limit offset).map fun executions =>
      (db, .executions executions)
  | .find_execution_by_idempotency_key workflow_id idempotency_key =>
    .ok (db, .found (db.find_execution_by_idempotency_key tenant_id workflow_id idempotency_key))
  | .count_executions => .ok (db, .count (db.count_executions tenant_id))
  | .create_asset_dependency id now upstream_asset_id downstream_asset_id dependency_type =>
    (db.create_asset_dependency tenant_id id now upstream_asset_id downstream_asset_id
      dependency_type).map fun outcome => (outcome.1, .created outcome.2)
  | .get_upstream_dependencies asset_id =>
    .ok (db, .dependencies (db.get_upstream_dependencies tenant_id asset_id))
  | .get_downstream_dependencies asset_id =>
    .ok (db, .dependencies (db.get_downstream_dependencies tenant_id asset_id))
  | .get_asset_dependencies asset_id =>
    .ok (db, .both_dependencies (db.get_asset_dependencies tenant_id asset_id).1
      (db.get_asset_dependencies tenant_id asset_id).2)
  | .delete_asset_dependency id => done (db.delete_asset_dependency tenant_id id)
  | .delete_asset_dependencies_for_asset asset_id =>
    .ok ((db.delete_asset_dependencies_for_asset tenant_id asset_id).1,
      .count (db.delete_asset_dependencies_for_asset tenant_id asset_id).2)
  | .get_asset_lineage asset_id max_depth =>
    .ok (db, .dependencies (db.get_asset_lineage tenant_id asset_id max_depth))
  | .create_asset_check check => done (db.create_asset_check tenant_id check)
  | .get_asset_check id => (db.get_asset_check tenant_id id).map fun check => (db, .check check)
  | .list_asset_checks asset_id enabled_only =>
    .ok (db, .checks (db.list_asset_checks tenant_id asset_id enabled_only))
  | .update_asset_check check => done (db.update_asset_check tenant_id check)
  | .delete_asset_check id => done (db.delete_asset_check tenant_id id)

/-- A call: an operation under a tenant. -/
abbrev Call : Type := TenantId × MetadataOp

def exec (db : Metadata) (call : Call) : Metadata × Except StorageError MetadataReply :=
  db.commit (db.perform call.1 call.2)

/-- The ids of new rows are fresh. -/
def fresh (db : Metadata) : MetadataOp → Bool
  | .create_asset asset => (db.assets.find? asset.id).isNone
  | .create_workflow workflow => (db.workflows.find? workflow.id).isNone
  | .create_execution _ execution => (db.executions.find? execution.id).isNone
  | .create_execution_or_get_existing _ execution => (db.executions.find? execution.id).isNone
  | .create_asset_dependency id _ _ _ _ => (db.asset_dependencies.find? id).isNone
  | .create_asset_check check => (db.asset_checks.find? check.id).isNone
  | _ => true

end Metadata

end Servo
