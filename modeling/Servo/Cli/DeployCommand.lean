import Servo.Cli.Deploy

/-! # The Deploy Command

    `execute`: the workflow is deployed, and then Cloud Scheduler is brought
    into line with its schedule. The job and the row that is to name it are
    written one after the other, with calls that may fail in between; a
    failure is reported to the user, and the command succeeds all the same.

    The command starts where it has its configuration and a connection.
-/

namespace Servo

open Procedure

/-- `Config`, as far as a deploy uses it. -/
structure Config where
  /-- Resolved: of the file, of the variable `TENANT_ID`, or `default`. -/
  tenant_id : String
  project_id : Option String
  region : Option String
  worker_url : Option String
  service_account_file : Option String
  deriving DecidableEq

section command
variable (env : Environment) (config : Config)

/-! ### Cloud Scheduler -/

/-- A setting that has to be there. -/
def required (value : Option String) (name : String) : Except DeployError String :=
  match value with
  | some value => .ok value
  | none => bail (name ++ " required for Cloud Scheduler")

/-- The contents of the service account file. -/
def read_service_account (service_account_file : String) : Except DeployError String :=
  match env.read_to_string service_account_file with
  | .ok service_account_json => .ok service_account_json
  | .error e => .error ["Failed to read service account file", e]

/-- `CloudSchedulerManager::new`, with the checks of the configuration before it. -/
def scheduler_manager : Except DeployError CloudSchedulerManager := do
  let project_id ← required config.project_id "project_id"
  let region ← required config.region "region"
  let worker_url ← required config.worker_url "worker_url"
  let service_account_file ← required config.service_account_file "service_account_file"
  let service_account_json ← read_service_account env service_account_file
  match env.from_service_account_json service_account_json with
  | .ok email => .ok ⟨project_id, region, worker_url, email⟩
  | .error e => bail ("Failed to create Cloud Scheduler client: " ++ e.to_string)

/-- A call of the manager. -/
def scheduler_call {α : Type} (failure : String)
    (x : Procedure (Remote SchedulerJobs) GcpError α) : Command α :=
  (x.zoom World.scheduler fun w scheduler => { w with scheduler }).map_error
    fun e => [failure ++ e.to_string]

/-! ### The row of the workflow -/

/-- The row is read, changed, and written back. -/
def rewrite_workflow (tenant : TenantId) (workflow_id : Uuid) (reading writing : String)
    (change : WorkflowModel → DateTime → WorkflowModel) : Command Unit := do
  let workflow ← context reading (query env (·.get_workflow tenant workflow_id))
  let now ← utc_now env
  context writing (statement env (·.update_workflow tenant (change workflow now)))

def clear_schedule_metadata (tenant : TenantId) (workflow_id : Uuid) : Command Unit :=
  rewrite_workflow env tenant workflow_id "Failed to get workflow for schedule metadata clear"
    "Failed to clear workflow schedule metadata" fun workflow now =>
      { workflow with
        schedule_cron := none
        schedule_timezone := none
        schedule_enabled := none
        scheduler_job_name := none
        last_scheduled_run := none
        next_scheduled_run := none
        updated_at := now }

def disable_schedule_on_sync_failure (tenant : TenantId) (workflow_id : Uuid) : Command Unit :=
  rewrite_workflow env tenant workflow_id "Failed to get workflow for schedule disable"
    "Failed to update workflow schedule_enabled" fun workflow now =>
      { workflow with schedule_enabled := some false, updated_at := now }

/-- The end of `sync_scheduler`. -/
def record_job_name (tenant : TenantId) (workflow_id : Uuid) (job_name : String) : Command Unit :=
  rewrite_workflow env tenant workflow_id "Failed to get workflow for job name update"
    "Failed to update workflow scheduler_job_name" fun workflow now =>
      { workflow with scheduler_job_name := some job_name, updated_at := now }

/-! ### The schedule -/

/-- The schedule of the definition, for the scheduler. -/
def schedule_config (definition : WorkflowDefinition) : Except DeployError ScheduleConfig :=
  match definition.schedule with
  | some schedule => .ok ⟨schedule.cron, schedule.timezone, schedule.enabled.getD true⟩
  | none => bail "No schedule defined"

def sync_scheduler (tenant : TenantId) (definition : WorkflowDefinition) (workflow_id : Uuid) :
    Command Unit := do
  let scheduler ← lift (scheduler_manager env config)
  let schedule ← lift (schedule_config definition)
  let job_name ← scheduler_call "Cloud Scheduler API error: "
    (scheduler.create_or_update_job env.network workflow_id config.tenant_id schedule)
  record_job_name env tenant workflow_id job_name

def delete_scheduler_job (workflow_id : Uuid) : Command Unit := do
  let scheduler ← lift (scheduler_manager env config)
  scheduler_call "Cloud Scheduler delete failed: "
    (scheduler.delete_job env.network workflow_id config.tenant_id)

/-- `if let Err(e) = ..`: what is done after a failure, whose own failure is only logged. -/
def on_failure (x handler : Command Unit) : Command Unit := do
  let outcome ← attempt x
  match outcome with
  | .ok () => pure ()
  | .error _ => do
    let _ ← attempt handler
    return ()

/-- The same, after a success. -/
def on_success (x next : Command Unit) : Command Unit := do
  let outcome ← attempt x
  match outcome with
  | .ok () => do
    let _ ← attempt next
    return ()
  | .error _ => pure ()

/-- Is there a job to be deleted, should the definition have no schedule? -/
def had_schedule (existing_workflow : Option WorkflowModel) : Bool :=
  existing_workflow.any fun w => w.schedule_cron.isSome && w.scheduler_job_name.isSome

/-- What `execute` does once the workflow is deployed. -/
def handle_schedule (tenant : TenantId) (definition : WorkflowDefinition)
    (existing_workflow : Option WorkflowModel) (workflow_id : Uuid) : Command Unit :=
  if definition.schedule.isSome then
    on_failure (sync_scheduler env config tenant definition workflow_id)
      (disable_schedule_on_sync_failure env tenant workflow_id)
  else if had_schedule existing_workflow then
    on_success (delete_scheduler_job env config workflow_id)
      (clear_schedule_metadata env tenant workflow_id)
  else pure ()

end command

def execute (env : Environment) (config : Config)
    (workflow_file : Except DeployError WorkflowDefinition) : Command Unit := do
  let definition ← lift (parse_workflow_file env.parsers workflow_file)
  let existing_workflow ←
    (Lookups.listing env).find_workflow_by_name config.tenant_id definition.name
  let result ← deploy_workflow env config.tenant_id workflow_file
  handle_schedule env config config.tenant_id definition existing_workflow result.workflow_id

end Servo
