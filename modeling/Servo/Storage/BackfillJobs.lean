import Servo.Storage.Validation
import Mathlib.Data.List.Lex

/-! # Backfill Job Operations of the Storage Layer

    Every operation of `PostgresStorage` on `backfill_jobs` runs in one
    transaction, and so is one function on the tables. An operation that
    returns an error has no effect (the transaction is rolled back), hence
    the results in `Except`.

    The SET clause of each UPDATE is a function on rows of its own
    (`BackfillJobModel.claimed`, `.transitioned`, ...): what an operation
    does to the table is then always "the rows with some guard are replaced
    by their image under that function".

    Row-level security makes the rows of other tenants invisible, so every
    operation takes the tenant of its caller.
-/

namespace Servo

/-! ### SET clauses -/

namespace BackfillJobModel

/-- SET clause of `claim_pending_backfill_job`. -/
def claimed (job : BackfillJobModel) (now : DateTime) : BackfillJobModel :=
  { job with
    state := .running
    started_at := if job.state = .pending then some now else job.started_at
    heartbeat_at := some now
    -- Clear paused_at when resuming
    paused_at := if job.state = .resuming then none else job.paused_at
    error_message :=
      if job.state = .running then some "Reclaimed by executor after stale heartbeat"
      else job.error_message
    version := job.version + 1 }

/-- SET clause of `transition_backfill_job_state`. -/
def transitioned (job : BackfillJobModel) (to_state : BackfillState)
    (error_message : Option String) (now : DateTime) : BackfillJobModel :=
  { job with
    state := to_state
    error_message := error_message.or job.error_message
    started_at := if to_state = .running then some now else job.started_at
    completed_at := if to_state.terminal then some now else job.completed_at
    heartbeat_at := some now
    version := job.version + 1 }

/-- SET clause of `cancel_backfill_job` and `cancel_job_tree`. -/
def cancelledFor (job : BackfillJobModel) (reason : String) (now : DateTime) : BackfillJobModel :=
  { job with
    state := .cancelled
    error_message := some reason
    completed_at := some now
    version := job.version + 1 }

/-- SET clause of `pause_backfill_job`. -/
def pausedAt (job : BackfillJobModel) (checkpoint : Option String) (now : DateTime) :
    BackfillJobModel :=
  { job with
    state := .paused
    paused_at := some now
    -- COALESCE preserves the existing checkpoint if no completed partitions are found
    checkpoint_partition_key := checkpoint.or job.checkpoint_partition_key
    heartbeat_at := some now
    version := job.version + 1 }

/-- SET clause of `resume_backfill_job`. -/
def resumed (job : BackfillJobModel) (now : DateTime) : BackfillJobModel :=
  { job with
    state := .resuming
    heartbeat_at := some now
    version := job.version + 1 }

/-- SET clause of `update_backfill_job_heartbeat`. -/
def heartbeat (job : BackfillJobModel) (now : DateTime) : BackfillJobModel :=
  { job with heartbeat_at := some now }

/-- SET clause of `update_backfill_job_progress`. -/
def counted (job : BackfillJobModel) (completed failed skipped : Int) (now : DateTime) :
    BackfillJobModel :=
  { job with
    completed_partitions := completed
    failed_partitions := failed
    skipped_partitions := skipped
    heartbeat_at := some now }

/-- SET clause of `update_backfill_job`: the columns of the caller's copy `job`. -/
def updatedTo (row job : BackfillJobModel) : BackfillJobModel :=
  { row with
    state := job.state
    completed_partitions := job.completed_partitions
    failed_partitions := job.failed_partitions
    skipped_partitions := job.skipped_partitions
    error_message := job.error_message
    started_at := job.started_at
    completed_at := job.completed_at
    heartbeat_at := job.heartbeat_at
    version := row.version + 1 }

/-- SET clause of `update_backfill_job_progress_with_eta`. -/
def progressed (job : BackfillJobModel) (progress : BackfillProgressUpdate) (now : DateTime) :
    BackfillJobModel :=
  { job with
    completed_partitions := progress.completed
    failed_partitions := progress.failed
    skipped_partitions := progress.skipped
    heartbeat_at := some now
    checkpoint_partition_key :=
      progress.checkpoint_partition_key.or job.checkpoint_partition_key }

end BackfillJobModel

/-- SET clause of the cancellations on the pending partitions of a job. -/
def BackfillPartitionModel.skippedFor (p : BackfillPartitionModel) (error_message : String)
    (now : DateTime) : BackfillPartitionModel :=
  { p with
    state := .skipped
    completed_at := some now
    error_message := some error_message }

/-! ### Updates guarded by a row's columns -/

/-- `UPDATE backfill_jobs SET f WHERE id = job_id AND guard`, under the row-level
    security of `tenant_id`; `none` when no row is affected. -/
def Db.update_job_where (db : Db) (tenant_id : TenantId) (job_id : Uuid)
    (guard : BackfillJobModel → Bool) (f : BackfillJobModel → BackfillJobModel)
    (hf : ∀ job, (f job).id = job.id ∧
      ((f job).tenant_id, (f job).idempotency_key) = (job.tenant_id, job.idempotency_key)) :
    Option Db :=
  match db.job? job_id with
  | some job =>
    if job.tenant_id = tenant_id ∧ guard job = true then
      some { db with backfill_jobs := db.backfill_jobs.modify (fun j => j.id = job_id) f hf }
    else none
  | none => none

/-! ### Claiming -/

/-- The WHERE clause of the claim: pending, resuming, or running with a heartbeat
    older than the threshold (a NULL heartbeat is never stale). -/
def BackfillJobModel.claimable (job : BackfillJobModel) (stale_heartbeat_threshold_secs : Int)
    (now : DateTime) : Bool :=
  match job.state with
  | .pending | .resuming => true
  | .running =>
    match job.heartbeat_at with
    -- times are in microseconds
    | some t => t < now - stale_heartbeat_threshold_secs * 1000000
    | none => false
  | _ => false

/-- The ORDER BY clause of the claim. -/
def BackfillJobModel.claim_order (job : BackfillJobModel) : List Int :=
  [match job.state with | .pending => 0 | .resuming => 1 | _ => 2,
   -job.priority, job.execution_order, job.created_at]

/-- `claim_pending_backfill_job`. The rows in `locked` are held by transactions
    in flight and skipped (FOR UPDATE SKIP LOCKED). -/
def Db.claim_pending_backfill_job (db : Db) (stale_heartbeat_threshold_secs : Int)
    (tenant_id : TenantId) (now : DateTime) (locked : List Uuid) :
    Option (BackfillJobModel × Db) :=
  match db.backfill_jobs.selectFirst
      (fun job => job.tenant_id = tenant_id && job.claimable stale_heartbeat_threshold_secs now &&
        !locked.contains job.id)
      (fun a b => a.claim_order < b.claim_order) with
  | some job =>
    some (job.claimed now,
      { db with
        backfill_jobs := db.backfill_jobs.modify (fun j => j.id = job.id) (·.claimed now)
          (fun _ => ⟨rfl, rfl⟩) })
  | none => none

/-! ### State transitions -/

/-- `validate_backfill_state_transition`: the table of allowed transitions. -/
def validate_backfill_state_transition : BackfillState → BackfillState → Bool
  | .pending, .running
  | .pending, .waiting_upstream
  | .pending, .cancelled
  | .waiting_upstream, .pending
  | .waiting_upstream, .failed
  | .waiting_upstream, .cancelled
  | .running, .waiting_upstream
  | .running, .completed
  | .running, .failed
  | .running, .cancelled
  | .running, .paused
  | .paused, .resuming
  | .paused, .cancelled
  | .resuming, .running
  | .resuming, .cancelled => true
  | _, _ => false

/-- `transition_backfill_job_state`. -/
def Db.transition_backfill_job_state (db : Db) (job_id : Uuid)
    (from_state to_state : BackfillState) (error_message : Option String)
    (tenant_id : TenantId) (now : DateTime) : Except StorageError Db :=
  if validate_backfill_state_transition from_state to_state then
    -- no row is affected: the job is missing, hidden, or in another state
    match db.update_job_where tenant_id job_id (fun job => job.state = from_state)
        (·.transitioned to_state error_message now) (fun _ => ⟨rfl, rfl⟩) with
    | some db' => .ok db'
    | none => .error (.NotFound ("Backfill job " ++ job_id.to_string ++
        " not found in state '" ++ from_state.text ++ "'"))
  else
    .error (.ValidationError ("Invalid backfill state transition: " ++ from_state.text ++
      " -> " ++ to_state.text))

/-! ### User operations -/

/-- The states `cancel_backfill_job` and `cancel_job_tree` accept. -/
def BackfillState.cancellable : BackfillState → Bool
  | .pending | .waiting_upstream | .running | .paused | .resuming => true
  | _ => false

/-- `cancel_backfill_job`: cancel the job and skip its pending partitions. -/
def Db.cancel_backfill_job (db : Db) (job_id : Uuid) (reason : Option String)
    (tenant_id : TenantId) (now : DateTime) : Except StorageError Db :=
  match db.job? job_id with
  | some job =>
    if job.tenant_id = tenant_id then
      if job.state.cancellable then
        .ok {
          backfill_jobs := db.backfill_jobs.modify (fun j => j.id = job_id)
            (·.cancelledFor (reason.getD "Cancelled by user") now) (fun _ => ⟨rfl, rfl⟩)
          backfill_partitions := db.backfill_partitions.modify
            (fun p => p.backfill_job_id = job_id && p.tenant_id = tenant_id && p.state = .pending)
            (·.skippedFor "Job cancelled" now) (fun _ => ⟨rfl, rfl⟩) }
      else
        .error (.ValidationError ("Cannot cancel job in state '" ++ job.state.text ++
          "'. Only pending, waiting_upstream, running, paused, or resuming jobs can be cancelled."))
    else .error (.NotFound ("Backfill job " ++ job_id.to_string ++ " not found"))
  | none => .error (.NotFound ("Backfill job " ++ job_id.to_string ++ " not found"))

/-- The jobs of the tree below a root job that row-level security shows. -/
def BackfillJobModel.in_tree (job : BackfillJobModel) (root_job_id : Uuid)
    (tenant_id : TenantId) : Bool :=
  job.tenant_id = tenant_id && (job.id = root_job_id || job.parent_job_id = some root_job_id)

/-- `cancel_job_tree`: cancel the root and its children in cancellable states and
    skip the pending partitions of the whole tree. Returns the number of
    cancelled jobs. -/
def Db.cancel_job_tree (db : Db) (root_job_id : Uuid) (reason : String) (tenant_id : TenantId)
    (now : DateTime) : Int × Db :=
  (db.backfill_jobs.rows.countP
      (fun job => job.in_tree root_job_id tenant_id && job.state.cancellable),
    { backfill_jobs := db.backfill_jobs.modify
        (fun job => job.in_tree root_job_id tenant_id && job.state.cancellable)
        (·.cancelledFor reason now) (fun _ => ⟨rfl, rfl⟩)
      backfill_partitions := db.backfill_partitions.modify
        (fun p => p.tenant_id = tenant_id && p.state = .pending &&
          (db.job? p.backfill_job_id).any (·.in_tree root_job_id tenant_id))
        (·.skippedFor "Job tree cancelled" now) (fun _ => ⟨rfl, rfl⟩) })

/-- `completed_at DESC`, where PostgreSQL puts NULLs first. -/
def later_completed (p q : BackfillPartitionModel) : Bool :=
  match p.completed_at, q.completed_at with
  | none, some _ => true
  | some a, some b => b < a
  | _, none => false

/-- The key of the partition of a job that completed last. -/
def Db.last_completed_partition (db : Db) (job_id : Uuid) (tenant_id : TenantId) :
    Option String :=
  (db.backfill_partitions.selectFirst
    (fun p => p.backfill_job_id = job_id && p.tenant_id = tenant_id && p.state = .completed)
    later_completed).map (·.partition_key)

/-- `pause_backfill_job`. -/
def Db.pause_backfill_job (db : Db) (job_id : Uuid) (tenant_id : TenantId) (now : DateTime) :
    Except StorageError Db :=
  match db.update_job_where tenant_id job_id (fun job => job.state = .running)
      (·.pausedAt (db.last_completed_partition job_id tenant_id) now) (fun _ => ⟨rfl, rfl⟩) with
  | some db' => .ok db'
  | none =>
    match (db.job? job_id).filter (·.tenant_id = tenant_id) with
    | some job => .error (.ValidationError ("Cannot pause job in state '" ++ job.state.text ++
        "'. Only running jobs can be paused."))
    | none => .error (.NotFound ("Backfill job " ++ job_id.to_string ++ " not found"))

/-- `resume_backfill_job`. -/
def Db.resume_backfill_job (db : Db) (job_id : Uuid) (tenant_id : TenantId) (now : DateTime) :
    Except StorageError Db :=
  match db.update_job_where tenant_id job_id (fun job => job.state = .paused) (·.resumed now)
      (fun _ => ⟨rfl, rfl⟩) with
  | some db' => .ok db'
  | none =>
    match (db.job? job_id).filter (·.tenant_id = tenant_id) with
    | some job => .error (.ValidationError ("Cannot resume job in state '" ++ job.state.text ++
        "'. Only paused jobs can be resumed."))
    | none => .error (.NotFound ("Backfill job " ++ job_id.to_string ++ " not found"))

/-- `is_backfill_job_cancelled`. -/
def Db.is_backfill_job_cancelled (db : Db) (job_id : Uuid) (tenant_id : TenantId) : Bool :=
  (db.job? job_id).any (fun job => job.tenant_id = tenant_id && job.state = .cancelled)

/-- `is_backfill_job_paused`. -/
def Db.is_backfill_job_paused (db : Db) (job_id : Uuid) (tenant_id : TenantId) : Bool :=
  (db.job? job_id).any (fun job => job.tenant_id = tenant_id && job.state = .paused)

/-! ### Progress -/

/-- `update_backfill_job_heartbeat`: silently without effect unless the job runs. -/
def Db.update_backfill_job_heartbeat (db : Db) (job_id : Uuid) (tenant_id : TenantId)
    (now : DateTime) : Db :=
  (db.update_job_where tenant_id job_id (fun job => job.state = .running) (·.heartbeat now)
    (fun _ => ⟨rfl, rfl⟩)).getD db

/-- `update_backfill_job_progress`: silently without effect unless the job runs. -/
def Db.update_backfill_job_progress (db : Db) (job_id : Uuid)
    (completed failed skipped : Int) (tenant_id : TenantId) (now : DateTime) : Db :=
  (db.update_job_where tenant_id job_id (fun job => job.state = .running)
    (·.counted completed failed skipped now) (fun _ => ⟨rfl, rfl⟩)).getD db

/-- `update_backfill_job_progress_with_eta`: silently without effect unless the
    job runs. -/
def Db.update_backfill_job_progress_with_eta (db : Db) (job_id : Uuid)
    (progress : BackfillProgressUpdate) (tenant_id : TenantId) (now : DateTime) : Db :=
  (db.update_job_where tenant_id job_id (fun job => job.state = .running)
    (·.progressed progress now) (fun _ => ⟨rfl, rfl⟩)).getD db

/-! ### Read and update -/

/-- `get_backfill_job`. -/
def Db.get_backfill_job (db : Db) (id : Uuid) (tenant_id : TenantId) :
    Except StorageError BackfillJobModel :=
  match (db.job? id).filter (·.tenant_id = tenant_id) with
  | some job => .ok job
  | none => .error (.NotFound ("Backfill job " ++ id.to_string))

/-- `update_backfill_job`: writes the caller's copy unless the row's version has moved on. -/
def Db.update_backfill_job (db : Db) (job : BackfillJobModel) (tenant_id : TenantId) :
    Except StorageError Db :=
  match db.update_job_where tenant_id job.id (fun row => row.version = job.version)
      (·.updatedTo job) (fun _ => ⟨rfl, rfl⟩) with
  | some db' => .ok db'
  -- a version conflict reads like a job that is missing
  | none => .error (.NotFound ("Backfill job " ++ job.id.to_string ++ " (version " ++
      toString job.version ++ ")"))

/-! ### Creation and lookup -/

/-- The message of a unique violation on `backfill_jobs`. -/
def Db.job_unique_violation (db : Db) (job : BackfillJobModel) : StorageError :=
  .AlreadyExists ("duplicate key value violates unique constraint \"" ++
    (if (db.job? job.id).isSome then "backfill_jobs_pkey"
     else "backfill_jobs_tenant_id_idempotency_key_key") ++ "\"")

/-- `create_backfill_job`. -/
def Db.create_backfill_job (db : Db) (job : BackfillJobModel) (tenant_id : TenantId) :
    Except StorageError Db := do
  validate_non_empty_string job.asset_name "Asset name"
  validate_non_empty_string job.idempotency_key "Idempotency key"
  if job.tenant_id = tenant_id then
    match db.backfill_jobs.insert? job with
    | some jobs => .ok { db with backfill_jobs := jobs }
    | none => .error (db.job_unique_violation job)
  else
    .error (.Database "new row violates row-level security policy for table \"backfill_jobs\"")

/-- `find_active_backfill_for_partition`: a job of the asset in an active state
    whose `partition_keys` list contains the key. -/
def Db.find_active_backfill_for_partition (db : Db) (asset_id : Uuid) (partition_key : String)
    (tenant_id : TenantId) : Option BackfillJobModel :=
  db.backfill_jobs.selectFirst
    (fun job => job.tenant_id = tenant_id && job.asset_id = asset_id && job.state.cancellable &&
      job.partition_keys.contains partition_key)
    (fun a b => b.created_at < a.created_at)

end Servo
