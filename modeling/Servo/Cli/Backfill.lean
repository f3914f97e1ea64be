import Servo.Storage.BackfillPartitions

/-! # Creating Backfill Jobs from the Command Line

    `execute_single_partition` and `execute_range_backfill` as clients of the
    storage layer. A client looks for an active backfill of each requested
    key, inserts the job row, and then inserts the partition rows, each in
    a transaction of its own; executors may run in between.
-/

namespace Servo

/-- Which of the two commands is run. For a range, `partition_keys` are the days
    from `start_date` to `end_date`. -/
inductive BackfillTarget where
  | single (partition_key : String)
  | range (start_date end_date : String) (partition_keys : List String)

/-- The arguments of a backfill command, once the asset has been looked up. -/
structure BackfillRequest where
  tenant_id : TenantId
  asset_id : Uuid
  asset_name : String
  target : BackfillTarget
  include_upstream : Bool
  max_upstream_depth : Int
  priority : Int

namespace BackfillRequest

/-- The keys to backfill. -/
def partition_keys (req : BackfillRequest) : List String :=
  match req.target with
  | .single key => [key]
  | .range _ _ keys => keys

def partition_start (req : BackfillRequest) : String :=
  match req.target with
  | .single key => key
  | .range start_date _ _ => start_date

def partition_end (req : BackfillRequest) : String :=
  match req.target with
  | .single key => key
  | .range _ end_date _ => end_date

/-- The idempotency key; `timestamp` is the clock formatted as `%Y%m%d%H%M%S`. -/
def idempotency_key (req : BackfillRequest) (timestamp : String) : String :=
  match req.target with
  | .single key => req.asset_id.to_string ++ ":" ++ key ++ ":" ++ timestamp
  | .range start_date end_date _ =>
    req.asset_id.to_string ++ ":" ++ start_date ++ ":" ++ end_date ++ ":" ++ timestamp

/-- The CHECK constraints on the two columns taken from the command line. -/
def valid (req : BackfillRequest) : Prop :=
  (0 ≤ req.max_upstream_depth ∧ req.max_upstream_depth ≤ 10) ∧
    -10 ≤ req.priority ∧ req.priority ≤ 10

instance (req : BackfillRequest) : Decidable req.valid := by
  unfold valid
  infer_instance

/-- The job row of a request. -/
def job (req : BackfillRequest) (hreq : req.valid) (id : Uuid) (now : DateTime)
    (timestamp : String) : BackfillJobModel where
  id := id
  tenant_id := req.tenant_id
  asset_id := req.asset_id
  asset_name := req.asset_name
  idempotency_key := req.idempotency_key timestamp
  state := .pending
  partition_start := some req.partition_start
  partition_end := some req.partition_end
  partition_keys := req.partition_keys
  total_partitions := req.partition_keys.length
  completed_partitions := 0
  failed_partitions := 0
  skipped_partitions := 0
  include_upstream := req.include_upstream
  error_message := none
  created_at := now
  started_at := none
  completed_at := none
  heartbeat_at := none
  version := 1
  paused_at := none
  checkpoint_partition_key := none
  parent_job_id := none
  max_upstream_depth := req.max_upstream_depth
  upstream_job_count := 0
  completed_upstream_jobs := 0
  execution_order := 0
  priority := req.priority
  valid_upstream_counts := new_upstream_counts
  valid_upstream_depth := hreq.1
  valid_priority := hreq.2

end BackfillRequest

/-- The partition row of one key of a job. -/
def new_partition (id job_id : Uuid) (partition_key : String) (tenant_id : TenantId) :
    BackfillPartitionModel where
  id := id
  backfill_job_id := job_id
  partition_key := partition_key
  state := .pending
  attempt_count := 0
  execution_id := none
  error_message := none
  duration_ms := none
  started_at := none
  completed_at := none
  tenant_id := tenant_id

/-- Command line processes are told apart by a number. -/
abbrev ClientId : Type := Nat

/-- Where a command line process stands. -/
inductive CliPc where
  /-- Not running. -/
  | idle
  /-- `find_active_backfill_for_partition` for the keys still to check. -/
  | checking (req : BackfillRequest) (todo : List String)
  /-- `create_backfill_job`. -/
  | creating_job (req : BackfillRequest)
  /-- `create_backfill_partition` for the keys still to insert. -/
  | creating_partitions (job_id : Uuid) (tenant_id : TenantId) (todo : List String)

/-- The calls of a command line process. -/
inductive CliAction where
  | start (req : BackfillRequest)
  | find_active_backfill_for_partition
  | create_backfill_job (id : Uuid) (now : DateTime) (timestamp : String)
  | create_backfill_partition (id : Uuid)
  /-- The pending call returns an error without effect, or the process dies. -/
  | abort

/-- After a successful check of a key. -/
def next_check (req : BackfillRequest) (todo : List String) : CliPc :=
  if todo = [] then .creating_job req else .checking req todo

/-- After the insertion of the job or of a partition. -/
def next_partition (job_id : Uuid) (tenant_id : TenantId) (todo : List String) : CliPc :=
  if todo = [] then .idle else .creating_partitions job_id tenant_id todo

/-- One call of a command line process; `none` when the action is not the pending
    call. A failed call ends the process. -/
def CliPc.step (db : Db) (pc : CliPc) (a : CliAction) : Option (Db × CliPc) :=
  match a, pc with
  | .start req, .idle => some (db, next_check req req.partition_keys)
  | .find_active_backfill_for_partition, .checking req (key :: todo) =>
    some (db,
      if (db.find_active_backfill_for_partition req.asset_id key req.tenant_id).isSome then .idle
      else next_check req todo)
  | .create_backfill_job id now timestamp, .creating_job req =>
    if hreq : req.valid then
      match db.create_backfill_job (req.job hreq id now timestamp) req.tenant_id with
      | .ok db' => some (db', next_partition id req.tenant_id req.partition_keys)
      | .error _ => some (db, .idle)
    else some (db, .idle)
  | .create_backfill_partition id, .creating_partitions job_id tenant_id (key :: todo) =>
    match db.create_backfill_partition (new_partition id job_id key tenant_id) tenant_id with
    | .ok db' => some (db', next_partition job_id tenant_id todo)
    | .error _ => some (db, .idle)
  | .abort, _ => some (db, .idle)
  | _, _ => none

end Servo
