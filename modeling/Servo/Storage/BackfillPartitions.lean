import Servo.Storage.BackfillJobs
import Mathlib.Data.String.Basic

/-! # Backfill Partition Operations of the Storage Layer

    The operations of `PostgresStorage` on `backfill_partitions` that the
    executor and the command line use. As for jobs, the SET clause of each
    UPDATE is a function on rows.
-/

namespace Servo

namespace BackfillPartitionModel

/-- SET clause of `claim_pending_partition`. -/
def claimed (p : BackfillPartitionModel) (now : DateTime) : BackfillPartitionModel :=
  { p with
    state := .running
    started_at := some now
    attempt_count := p.attempt_count + 1
    error_message := none }

/-- SET clause of `complete_backfill_partition`. -/
def completedBy (p : BackfillPartitionModel) (execution_id : Option Uuid) (duration_ms : Int)
    (now : DateTime) : BackfillPartitionModel :=
  { p with
    state := .completed
    execution_id := execution_id
    duration_ms := some duration_ms
    completed_at := some now }

/-- SET clause of `fail_backfill_partition`. -/
def failedWith (p : BackfillPartitionModel) (error_message : String) (duration_ms : Int)
    (now : DateTime) : BackfillPartitionModel :=
  { p with
    state := .failed
    error_message := some error_message
    duration_ms := some duration_ms
    completed_at := some now }

/-- SET clause of `requeue_backfill_partition`. -/
def requeued (p : BackfillPartitionModel) : BackfillPartitionModel :=
  { p with state := .pending, started_at := none }

/-- The WHERE clause of the claim: pending, or failed under the retry limit. -/
def claimable (p : BackfillPartitionModel) (max_retries : Int) : Bool :=
  match p.state with
  | .pending => true
  | .failed => p.attempt_count < max_retries
  | _ => false

/-- The ORDER BY clause of the claim: pending first, then by key. -/
def claim_before (p q : BackfillPartitionModel) : Bool :=
  match p.state, q.state with
  | .pending, .pending => p.partition_key < q.partition_key
  | .pending, _ => true
  | _, .pending => false
  | _, _ => p.partition_key < q.partition_key

end BackfillPartitionModel

/-- `claim_pending_partition`. The rows in `locked` are held by transactions in
    flight and skipped (FOR UPDATE SKIP LOCKED). -/
def Db.claim_pending_partition (db : Db) (job_id : Uuid) (max_retries : Int)
    (tenant_id : TenantId) (now : DateTime) (locked : List Uuid) :
    Option (BackfillPartitionModel × Db) :=
  match db.backfill_partitions.selectFirst
      (fun p => p.backfill_job_id = job_id && p.tenant_id = tenant_id &&
        p.claimable max_retries && !locked.contains p.id)
      BackfillPartitionModel.claim_before with
  | some p =>
    some (p.claimed now,
      { db with
        backfill_partitions := db.backfill_partitions.modify (fun q => q.id = p.id) (·.claimed now)
          (fun _ => ⟨rfl, rfl⟩) })
  | none => none

/-- `UPDATE backfill_partitions SET f WHERE id = partition_id AND state = 'running'`,
    under the row-level security of `tenant_id`. -/
def Db.update_running_partition (db : Db) (partition_id : Uuid) (tenant_id : TenantId)
    (f : BackfillPartitionModel → BackfillPartitionModel)
    (hf : ∀ p, (f p).id = p.id ∧
      ((f p).backfill_job_id, (f p).partition_key) = (p.backfill_job_id, p.partition_key)) :
    Except StorageError Db :=
  match db.partition? partition_id with
  | some p =>
    if p.tenant_id = tenant_id ∧ p.state = .running then
      .ok { db with
        backfill_partitions := db.backfill_partitions.modify (fun q => q.id = partition_id) f hf }
    else .error (.NotFound ("Backfill partition " ++ partition_id.to_string ++
        " not found in running state"))
  | none => .error (.NotFound ("Backfill partition " ++ partition_id.to_string ++
        " not found in running state"))

/-- `complete_backfill_partition`. -/
def Db.complete_backfill_partition (db : Db) (partition_id : Uuid) (execution_id : Option Uuid)
    (duration_ms : Int) (tenant_id : TenantId) (now : DateTime) : Except StorageError Db :=
  db.update_running_partition partition_id tenant_id (·.completedBy execution_id duration_ms now)
    (fun _ => ⟨rfl, rfl⟩)

/-- `fail_backfill_partition`. -/
def Db.fail_backfill_partition (db : Db) (partition_id : Uuid) (error_message : String)
    (duration_ms : Int) (tenant_id : TenantId) (now : DateTime) : Except StorageError Db :=
  db.update_running_partition partition_id tenant_id (·.failedWith error_message duration_ms now)
    (fun _ => ⟨rfl, rfl⟩)

/-- `requeue_backfill_partition`. The attempt count keeps the claim's increment. -/
def Db.requeue_backfill_partition (db : Db) (partition_id : Uuid) (tenant_id : TenantId) :
    Except StorageError Db :=
  db.update_running_partition partition_id tenant_id (·.requeued) (fun _ => ⟨rfl, rfl⟩)

/-- `create_backfill_partition`. The foreign key on the job is not subject to
    row-level security. -/
def Db.create_backfill_partition (db : Db) (partition : BackfillPartitionModel)
    (tenant_id : TenantId) : Except StorageError Db := do
  validate_non_empty_string partition.partition_key "Partition key"
  if partition.tenant_id = tenant_id then
    if (db.job? partition.backfill_job_id).isSome then
      match db.backfill_partitions.insert? partition with
      | some partitions => .ok { db with backfill_partitions := partitions }
      | none => .error (.AlreadyExists ("duplicate key value violates unique constraint \"" ++
          (if (db.partition? partition.id).isSome then "backfill_partitions_pkey"
           else "backfill_partitions_backfill_job_id_partition_key_key") ++ "\""))
    else
      .error (.NotFound ("insert or update on table \"backfill_partitions\" violates foreign " ++
        "key constraint \"backfill_partitions_backfill_job_id_fkey\""))
  else
    .error (.Database
      "new row violates row-level security policy for table \"backfill_partitions\"")

/-- `is_partition_completed`: some partition row of some job of the asset has the
    key and is completed. -/
def Db.is_partition_completed (db : Db) (asset_id : Uuid) (partition_key : String)
    (tenant_id : TenantId) : Bool :=
  db.backfill_partitions.rows.any (fun p => p.tenant_id = tenant_id &&
    p.partition_key = partition_key && p.state = .completed &&
    (db.job? p.backfill_job_id).any (fun job =>
      job.tenant_id = tenant_id && job.asset_id = asset_id))

end Servo
