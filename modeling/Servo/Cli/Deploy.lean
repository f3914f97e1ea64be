import Mathlib.Data.List.Infix
import Servo.Cli.WorkflowDefinition
import Servo.CloudGcp.Scheduler
import Servo.Storage.Metadata

/-! # Deploying a Workflow

    `deploy_workflow` as a sequence of storage calls, each of them a
    transaction of its own, on a world that other parts of the command share.
    The workflow row is written first, then one asset after the other, and
    then the dependencies.

    Every storage call may fail for reasons that are not in the tables (a lost
    connection, a timeout), before or after it was committed.
-/

namespace Servo

open Procedure

/-- What a command has to do with beside its arguments. -/
structure Environment where
  parsers : ScheduleParsers
  /-- Faults of the storage calls, by the text of their errors. -/
  storage_faults : Nat → Option (Fault String)
  network : CloudSchedulerManager.Network
  /-- `Uuid::new_v4`. -/
  uuid : Nat → Uuid
  /-- `Utc::now`. -/
  now : Nat → DateTime
  /-- `std::fs::read_to_string`. -/
  read_to_string : String → Except String String
  /-- `GcpAuth::from_service_account_json`, by the `client_email` of the credentials. -/
  from_service_account_json : String → Except GcpError String

/-- The tables, the jobs of Cloud Scheduler, and what has been drawn so far. -/
structure World where
  storage : Remote Metadata
  scheduler : Remote SchedulerJobs
  uuids : Nat
  readings : Nat

/-- The world when a command starts. -/
def World.start (db : Metadata) (jobs : SchedulerJobs) : World := ⟨⟨db, 0⟩, ⟨jobs, 0⟩, 0, 0⟩

/-- An environment without faults, which draws new ids in every `era`. Cloud Scheduler files a
    job under the name in the request. -/
def Environment.quiet (era : Nat) : Environment where
  parsers := ⟨fun cron => cron = "0 0 2 * * *", fun timezone => timezone = "UTC"⟩
  storage_faults := fun _ => none
  network := ⟨⟨some, fun _ => ""⟩, fun _ => none⟩
  uuid := fun n => .ofNat 128 (1000 * era + n + 1)
  now := fun n => 1000 * era + n
  read_to_string := .ok
  from_service_account_json := .ok

def World.db (w : World) : Metadata := w.storage.state

def World.jobs (w : World) : SchedulerJobs := w.scheduler.state

/-- A command, or a part of one. -/
abbrev Command : Type → Type := Procedure World DeployError

/-! ### Steps of commands -/

section steps
variable {α : Type} (env : Environment)

def new_v4 : Command Uuid := fun w => (.ok (env.uuid w.uuids), { w with uuids := w.uuids + 1 })

def utc_now : Command DateTime := fun w =>
  (.ok (env.now w.readings), { w with readings := w.readings + 1 })

/-- `Context::context`. -/
def context (message : String) (x : Command α) : Command α := x.map_error (message :: ·)

/-- A call of `PostgresStorage`: one transaction. -/
def storage_call (op : Metadata → Except StorageError (α × Metadata)) : Command α :=
  (((atomic op).map_error StorageError.to_string |> call env.storage_faults).zoom World.storage
    fun w storage => { w with storage }).map_error fun message => [message]

/-- A call that reads. -/
def query (op : Metadata → Except StorageError α) : Command α :=
  storage_call env fun db => (op db).map fun a => (a, db)

/-- A call that writes. -/
def statement (op : Metadata → Except StorageError Metadata) : Command Unit :=
  storage_call env fun db => (op db).map fun db' => ((), db')

end steps

/-! ### Looking up names -/

/-- How `deploy_workflow` finds what is already deployed. -/
structure Lookups where
  find_workflow_by_name : TenantId → String → Command (Option WorkflowModel)
  find_asset_by_name : TenantId → String → Command (Option AssetModel)

namespace Lookups

variable (env : Environment)

/-- The lookups of the source, which list and filter. -/
def listing : Lookups where
  find_workflow_by_name := fun tenant name =>
    query env fun db => (db.list_workflows tenant 1000 0).map (·.find? (·.name = name))
  find_asset_by_name := fun tenant name =>
    query env fun db => (db.list_assets tenant 10000 0).map (·.find? (·.name = name))

/-- Lookups that miss nothing the tenant can see. -/
def exact : Lookups where
  find_workflow_by_name := fun tenant name =>
    query env fun db => .ok ((db.visible_workflows tenant).find? (·.name = name))
  find_asset_by_name := fun tenant name =>
    query env fun db => .ok ((db.visible_assets tenant).find? (·.name = name))

end Lookups

/-! ### The rows of a definition -/

/-- The row that a deploy writes for the workflow. -/
def WorkflowDefinition.workflow_model (definition : WorkflowDefinition) (tenant : TenantId)
    (workflow_id : Uuid) (was_update : Bool) (now : DateTime) : WorkflowModel where
  id := workflow_id
  name := definition.name
  description := definition.description
  owner := definition.owner
  tags := definition.tags
  tenant_id := some tenant
  -- "Version will be incremented on update", says the source; no code increments it
  version := if was_update then 0 else 1
  schedule_cron := definition.schedule.map (·.cron)
  schedule_timezone := definition.schedule.map (·.timezone)
  schedule_enabled := definition.schedule.map (·.enabled.getD true)
  scheduler_job_name := none
  last_scheduled_run := none
  next_scheduled_run := none
  created_at := now
  updated_at := now

/-- The row that a deploy writes for an asset. -/
def AssetDefinition.asset_model (asset_def : AssetDefinition) (tenant : TenantId)
    (workflow_owner : Option String) (existing_asset : Option AssetModel) (asset_id : Uuid)
    (now : DateTime) : AssetModel where
  id := asset_id
  name := asset_def.name
  description := asset_def.description
  asset_type := asset_def.asset_type
  owner := asset_def.owner <|> workflow_owner
  tags := asset_def.tags
  partition_config := asset_def.partition.map (·.to_partition_config_json)
  compute_fn_module := asset_def.compute_fn_module
  compute_fn_function := asset_def.compute_fn_function
  tenant_id := some tenant
  created_at := (existing_asset.map (·.created_at)).getD now
  updated_at := now

/-! ### The deploy -/

/-- `DeploymentResult`. -/
structure DeploymentResult where
  workflow_id : Uuid
  /-- Asset name to asset id, the last asset first. -/
  asset_ids : List (String × Uuid)
  dependency_count : Nat
  was_update : Bool
  deriving DecidableEq

section deploy
variable (env : Environment) (lookups : Lookups) (tenant : TenantId)

/-- The id of the workflow, and whether it is there already. -/
def workflow_id_of : Option WorkflowModel → Command (Uuid × Bool)
  | some existing => pure (existing.id, true)
  | none => do
    let workflow_id ← new_v4 env
    return (workflow_id, false)

def write_workflow (workflow : WorkflowModel) (was_update : Bool) : Command Unit :=
  if was_update then
    context "Failed to update workflow" (statement env (·.update_workflow tenant workflow))
  else
    context "Failed to create workflow" (statement env (·.create_workflow tenant workflow))

/-- The part of `deploy_workflow` up to its first write, and that write. -/
def deploy_workflow_row (definition : WorkflowDefinition) : Command (Uuid × Bool) := do
  let existing_workflow ← lookups.find_workflow_by_name tenant definition.name
  let row ← workflow_id_of env existing_workflow
  let now ← utc_now env
  write_workflow env tenant (definition.workflow_model tenant row.1 row.2 now) row.2
  return row

def asset_id_of : Option AssetModel → Command Uuid
  | some existing => pure existing.id
  | none => new_v4 env

def write_asset (asset : AssetModel) (was_update : Bool) : Command Unit :=
  if was_update then
    context ("Failed to update asset '" ++ asset.name ++ "'")
      (statement env (·.update_asset tenant asset))
  else
    context ("Failed to create asset '" ++ asset.name ++ "'")
      (statement env (·.create_asset tenant asset))

def create_or_update_asset (asset_def : AssetDefinition) (workflow_owner : Option String) :
    Command Uuid := do
  let now ← utc_now env
  let existing_asset ← lookups.find_asset_by_name tenant asset_def.name
  let asset_id ← asset_id_of env existing_asset
  write_asset env tenant (asset_def.asset_model tenant workflow_owner existing_asset asset_id now)
    existing_asset.isSome
  return asset_id

/-- One asset of the first pass. -/
def deploy_asset (workflow_owner : Option String) (asset_ids : List (String × Uuid))
    (asset_def : AssetDefinition) : Command (List (String × Uuid)) := do
  let asset_id ← create_or_update_asset env lookups tenant asset_def workflow_owner
  return (asset_def.name, asset_id) :: asset_ids

/-- The first pass, over all assets. -/
def deploy_assets (definition : WorkflowDefinition) : Command (List (String × Uuid)) :=
  definition.assets.foldlM (deploy_asset env lookups tenant definition.owner) []

/-- `create_asset_dependency` of the storage. -/
def create_asset_dependency (upstream_id downstream_id : Uuid) (dep_type : String) :
    Command Uuid := do
  let id ← new_v4 env
  let now ← utc_now env
  storage_call env fun db =>
    (db.create_asset_dependency tenant id now upstream_id downstream_id dep_type).map
      fun (db', id) => (id, db')

/-- Is the text of an error that of a duplicate, which is ignored? -/
def is_duplicate (message : String) : Bool :=
  decide ("duplicate key".toList <:+: message.toList) ||
    decide ("already exists".toList <:+: message.toList)

/-- The id of an asset that has been deployed; the first pass has put all of them there. -/
def deployed_id (asset_ids : List (String × Uuid)) (asset message : String) :
    Except DeployError Uuid :=
  match asset_ids.lookup asset with
  | some id => .ok id
  | none => bail message

def dependency_type_of (dep : DependencyDefinition) : Except DeployError String :=
  if dep.dependency_type ∈ ["data", "metadata", "control"] then .ok dep.dependency_type
  else bail ("Invalid dependency type '" ++ dep.dependency_type ++
    "'. Must be one of: data, metadata, control")

/-- What the outcome of `create_asset_dependency` does to the count. -/
def count_dependency (dependency_count : Nat) (asset dependency : String) :
    Except DeployError Uuid → Except DeployError Nat
  | .ok _ => .ok (dependency_count + 1)
  | .error e =>
    if e.any is_duplicate then .ok dependency_count
    else .error (("Failed to create dependency " ++ dependency ++ " -> " ++ asset) :: e)

/-- One dependency of the second pass. -/
def deploy_dependency (asset_ids : List (String × Uuid)) (dependency_count : Nat)
    (edge : String × DependencyDefinition) : Command Nat := do
  let downstream_id ← lift (deployed_id asset_ids edge.1 "Asset ID should exist")
  let upstream_id ← lift (deployed_id asset_ids edge.2.asset (not_defined edge.1 edge.2.asset))
  let dep_type ← lift (dependency_type_of edge.2)
  let outcome ← attempt (create_asset_dependency env tenant upstream_id downstream_id dep_type)
  lift (count_dependency dependency_count edge.1 edge.2.asset outcome)

/-- The second pass, over all dependencies. -/
def deploy_dependencies (definition : WorkflowDefinition) (asset_ids : List (String × Uuid)) :
    Command Nat :=
  definition.edges.foldlM (deploy_dependency env tenant asset_ids) 0

/-- What follows the write of the workflow row. -/
def deploy_contents (definition : WorkflowDefinition) (row : Uuid × Bool) :
    Command DeploymentResult := do
  let asset_ids ← deploy_assets env lookups tenant definition
  let dependency_count ← deploy_dependencies env tenant definition asset_ids
  return ⟨row.1, asset_ids, dependency_count, row.2⟩

/-- `deploy_workflow`, with lookups of either kind. -/
def deploy_workflow_with (workflow_file : Except DeployError WorkflowDefinition) :
    Command DeploymentResult := do
  let definition ← lift (parse_workflow_file env.parsers workflow_file)
  let row ← deploy_workflow_row env lookups tenant definition
  deploy_contents env lookups tenant definition row

end deploy

def deploy_workflow (env : Environment) (tenant : TenantId)
    (workflow_file : Except DeployError WorkflowDefinition) : Command DeploymentResult :=
  deploy_workflow_with env (.listing env) tenant workflow_file

end Servo
