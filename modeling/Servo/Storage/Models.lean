import Servo.Core.Uuid
import Servo.Framework.Table

/-! # Rows of the Backfill Tables

    The two tables of the backfill subsystem, after migrations 007 to 012,
    and the errors of the storage layer.

    * Timestamps are microseconds and INTEGER columns are `Int`.
    * The CHECK constraints of `backfill_jobs` are fields of the row type: a
      row that violates `valid_upstream_counts`, `valid_upstream_depth` or
      `valid_priority` cannot be built. The two state columns range over
      the values their CHECK constraints admit.
    * PRIMARY KEY and UNIQUE constraints are carried by `Table`.
-/

namespace Servo

/-! ### Scalar types -/

/-- `servo_storage::TenantId`. -/
abbrev TenantId : Type := String

/-- `DateTime<Utc>`, in microseconds. -/
abbrev DateTime : Type := Int

/-! ### States -/

/-- The values `valid_backfill_state` admits. -/
inductive BackfillState where
  | pending
  | waiting_upstream
  | running
  | paused
  | resuming
  | completed
  | failed
  | cancelled
  deriving DecidableEq, Repr

/-- The text stored in the `state` column. -/
def BackfillState.text : BackfillState → String
  | .pending => "pending"
  | .waiting_upstream => "waiting_upstream"
  | .running => "running"
  | .paused => "paused"
  | .resuming => "resuming"
  | .completed => "completed"
  | .failed => "failed"
  | .cancelled => "cancelled"

/-- The terminal states of a backfill job. -/
def BackfillState.terminal : BackfillState → Bool
  | .completed | .failed | .cancelled => true
  | _ => false

/-- The values `valid_partition_state` admits. -/
inductive PartitionState where
  | pending
  | running
  | completed
  | failed
  | skipped
  deriving DecidableEq, Repr

/-! ### Rows -/

/-- `BackfillJobModel`, a row of `backfill_jobs`. -/
structure BackfillJobModel where
  id : Uuid
  tenant_id : TenantId
  asset_id : Uuid
  asset_name : String
  idempotency_key : String
  state : BackfillState
  partition_start : Option String
  partition_end : Option String
  partition_keys : List String
  total_partitions : Int
  completed_partitions : Int
  failed_partitions : Int
  skipped_partitions : Int
  include_upstream : Bool
  error_message : Option String
  created_at : DateTime
  started_at : Option DateTime
  completed_at : Option DateTime
  heartbeat_at : Option DateTime
  version : Int
  /-- Timestamp when the job was paused. -/
  paused_at : Option DateTime
  /-- Last successfully processed partition key. -/
  checkpoint_partition_key : Option String
  /-- Parent job in the upstream propagation hierarchy, `none` for root jobs. -/
  parent_job_id : Option Uuid
  max_upstream_depth : Int
  /-- Total number of upstream child jobs created. -/
  upstream_job_count : Int
  /-- Number of upstream jobs that have completed successfully. -/
  completed_upstream_jobs : Int
  /-- Topological execution order, 0 is furthest upstream. -/
  execution_order : Int
  priority : Int
  valid_upstream_counts : 0 ≤ upstream_job_count ∧ 0 ≤ completed_upstream_jobs ∧
    completed_upstream_jobs ≤ upstream_job_count
  valid_upstream_depth : 0 ≤ max_upstream_depth ∧ max_upstream_depth ≤ 10
  valid_priority : -10 ≤ priority ∧ priority ≤ 10
  deriving DecidableEq

/-- A new job has no upstream jobs yet. -/
theorem new_upstream_counts : (0 : Int) ≤ 0 ∧ (0 : Int) ≤ 0 ∧ (0 : Int) ≤ 0 := by decide

/-- `BackfillPartitionModel`, a row of `backfill_partitions`. -/
structure BackfillPartitionModel where
  id : Uuid
  backfill_job_id : Uuid
  partition_key : String
  state : PartitionState
  attempt_count : Int
  execution_id : Option Uuid
  error_message : Option String
  duration_ms : Option Int
  started_at : Option DateTime
  completed_at : Option DateTime
  tenant_id : TenantId
  deriving DecidableEq

/-- `backfill_jobs`: primary key `id`, `UNIQUE(tenant_id, idempotency_key)`. -/
abbrev BackfillJobs : Type :=
  Table BackfillJobModel.id (fun job => (job.tenant_id, job.idempotency_key))

/-- `backfill_partitions`: primary key `id`, `UNIQUE(backfill_job_id, partition_key)`. -/
abbrev BackfillPartitions : Type :=
  Table BackfillPartitionModel.id (fun p => (p.backfill_job_id, p.partition_key))

/-- The backfill part of the database. -/
structure Db where
  backfill_jobs : BackfillJobs
  backfill_partitions : BackfillPartitions

/-- The tables before any job has been created. -/
def Db.empty : Db := ⟨Table.empty _ _, Table.empty _ _⟩

/-- The job row with the given id. -/
def Db.job? (db : Db) (id : Uuid) : Option BackfillJobModel := db.backfill_jobs.find? id

/-- The partition row with the given id. -/
def Db.partition? (db : Db) (id : Uuid) : Option BackfillPartitionModel :=
  db.backfill_partitions.find? id

/-! ### Parameters and errors -/

/-- `BackfillProgressUpdate`, without the two columns computed in floating point
    (`avg_partition_duration_ms`, `estimated_completion_at`). -/
structure BackfillProgressUpdate where
  completed : Int
  failed : Int
  skipped : Int
  checkpoint_partition_key : Option String
  deriving DecidableEq

/-- `CreateUpstreamChildJobParams`. -/
structure CreateUpstreamChildJobParams where
  parent_job_id : Uuid
  asset_id : Uuid
  asset_name : String
  idempotency_key : String
  partition_start : Option String
  partition_end : Option String
  execution_order : Int

/-- `servo_storage::Error`, as far as the backfill operations produce it.
    `Database` stands for every failure below the operation itself
    (connection, pool, commit). -/
inductive StorageError where
  | Database (message : String)
  | NotFound (message : String)
  | AlreadyExists (message : String)
  | ValidationError (message : String)
  deriving DecidableEq

/-- The `Display` text of an error. -/
def StorageError.to_string : StorageError → String
  | .Database m => "Database error: " ++ m
  | .NotFound m => "Not found: " ++ m
  | .AlreadyExists m => "Already exists: " ++ m
  | .ValidationError m => "Validation error: " ++ m

end Servo
