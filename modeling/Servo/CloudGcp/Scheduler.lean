import Servo.Core.Json
import Servo.Framework.Encoding
import Servo.Framework.Procedures

/-! # Cloud Scheduler

    `CloudSchedulerManager`, which creates, updates and deletes the job of a
    workflow over HTTP. The service holds jobs by name; under which name it
    files a new job, and whether it takes the name at all, is a parameter. A
    request may fail before it reaches the service or after.

    The name in the request for a new job has no `jobs` segment, unlike the
    path that all other requests use.
-/

namespace Servo

open Procedure

/-- `servo_cloud_gcp::Error`. -/
inductive GcpError where
  | Api (message : String)
  | Auth (message : String)
  | Config (message : String)
  | Http (message : String)
  | Internal (message : String)
  deriving DecidableEq

/-- The `Display` text of an error. -/
def GcpError.to_string : GcpError → String
  | .Api m => "GCP API error: " ++ m
  | .Auth m => "Authentication error: " ++ m
  | .Config m => "Configuration error: " ++ m
  | .Http m => "HTTP error: " ++ m
  | .Internal m => "Internal error: " ++ m

/-- `ScheduleConfig`. -/
structure ScheduleConfig where
  cron : String
  timezone : String
  enabled : Bool
  deriving DecidableEq

/-! ### The service -/

/-- What a job calls when it is due. -/
structure HttpTarget where
  uri : String
  /-- The header `X-Servo-Tenant-Id`. -/
  tenant_id : String
  /-- Base64 text. -/
  body : Encoding.Bytes
  service_account_email : String
  audience : String
  deriving DecidableEq

/-- A job of Cloud Scheduler. -/
structure SchedulerJob where
  name : String
  schedule : String
  time_zone : String
  http_target : HttpTarget
  state : String
  deriving DecidableEq

/-- The jobs that there are. -/
abbrev SchedulerJobs : Type := List SchedulerJob

/-- An answer with the name of a job, or with a status that is no success. -/
inductive Response where
  | success (name : String)
  | failure (status : Nat)
  deriving DecidableEq

/-- What the code does not say of the service. -/
structure CloudScheduler where
  /-- The name of the job that a request under a name creates; none if it is refused. -/
  filed_as : String → Option String
  /-- Status line and body of an answer. -/
  refusal : Nat → String

namespace SchedulerJobs

/-- `POST .. /jobs`. -/
def post (service : CloudScheduler) (job : SchedulerJob) (jobs : SchedulerJobs) :
    Response × SchedulerJobs :=
  match service.filed_as job.name with
  | none => (.failure 400, jobs)
  | some name =>
    if jobs.any (·.name = name) then (.failure 409, jobs)
    else (.success name, { job with name } :: jobs)

/-- `GET`. -/
def get (path : String) (jobs : SchedulerJobs) : Response × SchedulerJobs :=
  if jobs.any (·.name = path) then (.success path, jobs) else (.failure 404, jobs)

/-- `PATCH`, of everything but the name. -/
def patch (path : String) (job : SchedulerJob) (jobs : SchedulerJobs) :
    Response × SchedulerJobs :=
  if jobs.any (·.name = path) then
    (.success path, jobs.map fun j => if j.name = path then { job with name := path } else j)
  else (.failure 404, jobs)

/-- `DELETE`. -/
def delete (path : String) (jobs : SchedulerJobs) : Response × SchedulerJobs :=
  if jobs.any (·.name = path) then (.success path, jobs.filter (·.name ≠ path))
  else (.failure 404, jobs)

end SchedulerJobs

/-! ### The client -/

/-- `CloudSchedulerManager`. -/
structure CloudSchedulerManager where
  project_id : String
  location : String
  worker_url : String
  /-- From the credentials. -/
  service_account_email : String

namespace CloudSchedulerManager

/-- What the client uses of the world: the service, and the faults of its requests. -/
structure Network where
  service : CloudScheduler
  faults : Nat → Option (Fault GcpError)

variable (manager : CloudSchedulerManager) (network : Network)

def parent_path : String :=
  "projects/" ++ manager.project_id ++ "/locations/" ++ manager.location

def job_name (workflow_id : Uuid) (tenant_id : String) : String :=
  "servo-" ++ tenant_id.map (fun c => if c ∈ ['.', '/', '\\'] then '-' else c) ++ "-" ++
    String.ofList (workflow_id.to_string.toList.filter (· ≠ '-'))

def full_job_path (workflow_id : Uuid) (tenant_id : String) : String :=
  manager.parent_path ++ "/jobs/" ++ job_name workflow_id tenant_id

/-- The name in the request of `create_job`. -/
def requested_name (workflow_id : Uuid) (tenant_id : String) : String :=
  manager.parent_path ++ "/" ++ job_name workflow_id tenant_id

/-- The job of both requests. -/
def job (name : String) (workflow_id : Uuid) (tenant_id : String) (schedule : ScheduleConfig) :
    SchedulerJob where
  name := name
  schedule := schedule.cron
  time_zone := schedule.timezone
  http_target :=
    { uri := manager.worker_url ++ "/api/v1/workflows/" ++ workflow_id.to_string ++ "/execute"
      tenant_id := tenant_id
      body := Encoding.base64_encode (json_object
        [("tenant_id", json_string tenant_id), ("triggered_by", json_string "scheduler"),
          ("workflow_id", json_string workflow_id.to_string)]).toUTF8.data.toList
      service_account_email := manager.service_account_email
      audience := manager.worker_url }
  state := if schedule.enabled then "ENABLED" else "PAUSED"

/-- A request: without a fault the service answers it, in one way or another. -/
def send (answer : SchedulerJobs → Response × SchedulerJobs) :
    Procedure (Remote SchedulerJobs) GcpError Response :=
  call network.faults (total answer)

/-- An answer that is no success. -/
def api_returned {α : Type} (status : Nat) : Procedure (Remote SchedulerJobs) GcpError α :=
  fail (.Api ("Cloud Scheduler API returned " ++ network.service.refusal status))

def create_job (workflow_id : Uuid) (tenant_id : String) (schedule : ScheduleConfig) :
    Procedure (Remote SchedulerJobs) GcpError String := do
  let job := manager.job (manager.requested_name workflow_id tenant_id) workflow_id tenant_id
    schedule
  match ← send network (SchedulerJobs.post network.service job) with
  | .success name => return name
  | .failure status => api_returned network status

def update_job (workflow_id : Uuid) (tenant_id : String) (schedule : ScheduleConfig) :
    Procedure (Remote SchedulerJobs) GcpError String := do
  let path := manager.full_job_path workflow_id tenant_id
  let job := manager.job path workflow_id tenant_id schedule
  match ← send network (SchedulerJobs.patch path job) with
  | .success name => return name
  | .failure status => api_returned network status

/-- A job that is not there counts as deleted. -/
def delete_job (workflow_id : Uuid) (tenant_id : String) :
    Procedure (Remote SchedulerJobs) GcpError Unit := do
  match ← send network (SchedulerJobs.delete (manager.full_job_path workflow_id tenant_id)) with
  | .success _ => return ()
  | .failure status => if status = 404 then return () else api_returned network status

def get_job (workflow_id : Uuid) (tenant_id : String) :
    Procedure (Remote SchedulerJobs) GcpError (Option String) := do
  match ← send network (SchedulerJobs.get (manager.full_job_path workflow_id tenant_id)) with
  | .success name => return some name
  | .failure status => if status = 404 then return none else api_returned network status

def create_or_update_job (workflow_id : Uuid) (tenant_id : String) (schedule : ScheduleConfig) :
    Procedure (Remote SchedulerJobs) GcpError String := do
  match ← manager.get_job network workflow_id tenant_id with
  | some _ => manager.update_job network workflow_id tenant_id schedule
  | none => manager.create_job network workflow_id tenant_id schedule

end CloudSchedulerManager

end Servo
