import Servo.Core.Partition
import Servo.Storage.BackfillPartitions
import Servo.Storage.UpstreamPropagation

/-! # The Backfill Executor

    `BackfillExecutor` as a machine that performs one storage call at a time.
    A program counter `Pc` says which call of `process_job` comes next and
    holds the local variables that are live there; `Pc.step` performs that
    call on the tables and moves to the next program counter.

    An `Action` names the call and carries everything the call does not
    determine: the clock reading, the rows other transactions have locked,
    the answers of reads outside the two backfill tables, the outcome of an
    execution, a generated id. `call_fails` is the pending call returning
    an error without effect, and `crash` is the process dying.

    A job that `process_job` abandons with `?` is left as it is: the executor
    goes back to polling, which is the program counter `idle`.
-/

namespace Servo

/-! ### Configuration -/

/-- `BackfillExecutorConfig`, durations in seconds. -/
structure BackfillExecutorConfig where
  /-- Maximum retries per partition. -/
  max_partition_retries : Int := 3
  /-- Jobs not updated in this time can be reclaimed. -/
  stale_heartbeat_threshold : Int := 120
  /-- Timeout per partition execution. -/
  partition_timeout : Int := 300
  deriving DecidableEq

/-- Executors are told apart by their id. -/
abbrev ExecutorId : Type := Nat

/-- What a fleet of executors is run with: the configuration and tenant of each,
    and the two functions of the partition mapping it calls. -/
structure Deployment where
  config : ExecutorId → BackfillExecutorConfig
  tenant_id : ExecutorId → TenantId
  /-- `PartitionResolver::resolve_upstream_range`: start, end, upstream
      configuration, downstream configuration. -/
  resolve_upstream_range : String → String → Option PartitionConfig → Option PartitionConfig →
    Except String (String × String)
  /-- `infer_mapping` followed by `PartitionMapper::get_upstream_partitions`,
      from the upstream and the downstream type; `none` is an inference error. -/
  infer_mapping : PartitionType → PartitionType → Option (String → List String)

/-! ### Upstream dependency cache -/

/-- `UpstreamAssetInfo`. -/
structure UpstreamAssetInfo where
  asset_id : Uuid
  name : String
  partition_config : Option PartitionConfig
  deriving DecidableEq

/-- `JobDependencyCache`: upstream assets keyed by name. -/
abbrev JobDependencyCache : Type := List UpstreamAssetInfo

/-- `HashMap::insert` under the asset's name. -/
def JobDependencyCache.insert (cache : JobDependencyCache) (info : UpstreamAssetInfo) :
    JobDependencyCache :=
  cache.filter (fun other => other.name ≠ info.name) ++ [info]

/-- `load_upstream_dependency_cache(..).await.ok()`, from the answers of its reads:
    an asset that cannot be read is left out. -/
def load_upstream_dependency_cache (upstream_deps : Except StorageError (List Uuid))
    (get_asset : Uuid → Except StorageError UpstreamAssetInfo) : Option JobDependencyCache :=
  match upstream_deps with
  | .error _ => none
  | .ok deps =>
    some (deps.foldl
      (fun cache dep =>
        match get_asset dep with
        | .ok info => cache.insert info
        | .error _ => cache)
      [])

/-- `resolve_upstream_partitions`: for each upstream asset of the cache the keys
    that the inferred mapping assigns to a downstream key, identity when none
    can be inferred. -/
def Deployment.resolve_upstream_partitions (D : Deployment) (downstream_key : String)
    (downstream_config : Option PartitionConfig) (upstream_cache : JobDependencyCache) :
    List (Uuid × List String) :=
  upstream_cache.map (fun info =>
    (info.asset_id,
      match info.partition_config, downstream_config with
      | some up_config, some down_config =>
        match D.infer_mapping up_config.partition_type down_config.partition_type with
        | some mapping => mapping downstream_key
        | none => [downstream_key]
      | _, _ => [downstream_key]))

/-! ### Local variables and program counters -/

/-- The local variables of the partition loop of `process_job`. `job` is the row
    as it was claimed. -/
structure PartitionLoop where
  job : BackfillJobModel
  upstream_cache : Option JobDependencyCache
  completed_count : Int
  failed_count : Int
  skipped_count : Int
  last_completed_partition : Option String
  deriving DecidableEq

namespace PartitionLoop

/-- The counters restart from the row. -/
def start (job : BackfillJobModel) (upstream_cache : Option JobDependencyCache) :
    PartitionLoop where
  job := job
  upstream_cache := upstream_cache
  completed_count := job.completed_partitions
  failed_count := job.failed_partitions
  skipped_count := job.skipped_partitions
  last_completed_partition := job.checkpoint_partition_key

/-- `execute_partition` returned `Ok(())`. -/
def partition_ok (l : PartitionLoop) (partition : BackfillPartitionModel) : PartitionLoop :=
  { l with
    completed_count := l.completed_count + 1
    last_completed_partition := some partition.partition_key }

/-- `execute_partition` returned an error: the partition counts as failed once
    its attempts are used up. -/
def partition_err (l : PartitionLoop) (partition : BackfillPartitionModel)
    (max_partition_retries : Int) : PartitionLoop :=
  if partition.attempt_count ≥ max_partition_retries then
    { l with failed_count := l.failed_count + 1 }
  else l

/-- The progress record of an iteration. -/
def progress (l : PartitionLoop) : BackfillProgressUpdate where
  completed := l.completed_count
  failed := l.failed_count
  skipped := l.skipped_count
  checkpoint_partition_key := l.last_completed_partition

/-- `final_state`. Unprocessed partitions only cause a warning. -/
def final_state (l : PartitionLoop) : BackfillState :=
  if l.failed_count > 0 ∧ l.completed_count = 0 then .failed
  else if l.completed_count + l.failed_count + l.skipped_count ≥ l.job.total_partitions then
    .completed
  else .completed

/-- `error_message` of the final transition. -/
def error_message (l : PartitionLoop) (max_partition_retries : Int) : Option String :=
  if l.failed_count > 0 then
    some (toString l.failed_count ++ " of " ++ toString l.job.total_partitions ++
      " partitions failed after " ++ toString max_partition_retries ++ " retries each")
  else none

/-- The idempotency key of the execution of a claimed partition. -/
def idempotency_key (l : PartitionLoop) (partition : BackfillPartitionModel) : String :=
  "backfill:" ++ l.job.id.to_string ++ ":" ++ partition.partition_key ++ ":" ++
    toString partition.attempt_count

end PartitionLoop

/-- Where an executor stands: the storage call it performs next. -/
inductive Pc where
  /-- Polling: `claim_pending_backfill_job`. -/
  | idle
  /-- `discover_upstream_assets`. -/
  | discovering (job : BackfillJobModel)
  /-- Transition to `failed` after a discovery error. -/
  | failing_discovery (job : BackfillJobModel) (error : StorageError)
  /-- The loop of `create_upstream_child_jobs`. -/
  | creating_children (job : BackfillJobModel) (todo : List UpstreamAsset) (max_depth : Int)
      (created_count : Nat)
  /-- `update_backfill_upstream_count`. -/
  | counting_children (job : BackfillJobModel) (created_count : Nat)
  /-- Transition to `waiting_upstream`. -/
  | entering_wait (job : BackfillJobModel)
  /-- `load_upstream_dependency_cache`. -/
  | loading_cache (job : BackfillJobModel)
  /-- `is_backfill_job_cancelled`, the head of the partition loop. -/
  | checking_cancelled (l : PartitionLoop)
  /-- `is_backfill_job_paused`. -/
  | checking_paused (l : PartitionLoop)
  /-- `update_backfill_job_heartbeat`. -/
  | beating (l : PartitionLoop)
  /-- `claim_pending_partition`. -/
  | claiming_partition (l : PartitionLoop)
  /-- `get_asset`, the head of `execute_partition`. -/
  | reading_asset (l : PartitionLoop) (partition : BackfillPartitionModel)
  /-- `is_partition_completed` in `check_upstream_ready`; the keys still to check. -/
  | checking_upstream (l : PartitionLoop) (partition : BackfillPartitionModel)
      (todo : List (Uuid × String))
  /-- `requeue_backfill_partition`. -/
  | requeueing (l : PartitionLoop) (partition : BackfillPartitionModel)
  /-- `execute_asset_partition`. -/
  | executing (l : PartitionLoop) (partition : BackfillPartitionModel)
  /-- `complete_backfill_partition`. -/
  | completing (l : PartitionLoop) (partition : BackfillPartitionModel) (execution_id : Uuid)
  /-- `fail_backfill_partition`. -/
  | failing (l : PartitionLoop) (partition : BackfillPartitionModel) (error : String)
  /-- `update_backfill_job_progress_with_eta`. -/
  | reporting (l : PartitionLoop)
  /-- Transition to the final state. -/
  | finishing (l : PartitionLoop)
  /-- `increment_completed_upstream` for a completed child. -/
  | incrementing (child : BackfillJobModel) (parent_id : Uuid)
  /-- `try_transition_parent_to_pending`. -/
  | releasing (child : BackfillJobModel) (parent_id : Uuid)
  /-- `fail_parent_on_child_failure` for a failed child. -/
  | failing_parent (child : BackfillJobModel) (parent_id : Uuid)

/-- The calls of an executor, with what the call does not determine. -/
inductive Action where
  | claim_pending_backfill_job (now : DateTime) (locked : List Uuid)
  | discover_upstream_assets (reads : DependencyReads)
  | create_upstream_child_job (upstream_config downstream_config : Option PartitionConfig)
      (id : Uuid) (now : DateTime)
  | update_backfill_upstream_count
  | load_upstream_dependency_cache (upstream_deps : Except StorageError (List Uuid))
      (get_asset : Uuid → Except StorageError UpstreamAssetInfo)
  | is_backfill_job_cancelled
  | is_backfill_job_paused
  | update_backfill_job_heartbeat (now : DateTime)
  | claim_pending_partition (now : DateTime) (locked : List Uuid)
  | get_asset (partition_config : Option PartitionConfig)
  | is_partition_completed
  | requeue_backfill_partition
  | execute_asset_partition (outcome : Except String Uuid)
  | complete_backfill_partition (duration_ms : Int) (now : DateTime)
  | fail_backfill_partition (duration_ms : Int) (now : DateTime)
  | update_backfill_job_progress_with_eta (now : DateTime)
  | transition_backfill_job_state (now : DateTime)
  | increment_completed_upstream
  | try_transition_parent_to_pending
  | fail_parent_on_child_failure (now : DateTime)
  /-- The pending call returns an error without effect. -/
  | call_fails (error : StorageError)
  /-- The process dies. -/
  | crash

/-! ### The pieces of `process_job` between two calls -/

/-- The entry of `process_job`: root jobs with `include_upstream` whose children
    have not been counted go through upstream propagation. -/
def process_job (job : BackfillJobModel) : Pc :=
  if job.include_upstream = true ∧ job.parent_job_id = none ∧ job.upstream_job_count = 0 then
    .discovering job
  else .loading_cache job

/-- The head of the loop over the discovered assets. -/
def next_child (job : BackfillJobModel) (todo : List UpstreamAsset) (max_depth : Int)
    (created_count : Nat) : Pc :=
  if todo = [] then .counting_children job created_count
  else .creating_children job todo max_depth created_count

/-- The largest depth of the discovered assets, `.max().unwrap_or(0)`. -/
def max_upstream_depth (assets : List UpstreamAsset) : Int :=
  (assets.map (·.2.2)).max?.getD 0

/-- What follows the discovery. Without upstream assets `process_job` returns. -/
def after_discovery (job : BackfillJobModel) :
    Except StorageError (List UpstreamAsset) → Pc
  | .error e => .failing_discovery job e
  | .ok [] => .idle
  | .ok assets => next_child job assets (max_upstream_depth assets) 0

/-- The parameters of the child job for one upstream asset. -/
def Deployment.child_params (D : Deployment) (parent_job : BackfillJobModel)
    (asset : UpstreamAsset) (max_depth : Int)
    (upstream_config downstream_config : Option PartitionConfig) : CreateUpstreamChildJobParams :=
  let range : Option String × Option String :=
    match parent_job.partition_start, parent_job.partition_end with
    | some start_key, some end_key =>
      match D.resolve_upstream_range start_key end_key upstream_config downstream_config with
      | .ok (resolved_start, resolved_end) => (some resolved_start, some resolved_end)
      -- Failed to resolve partition range, using parent range
      | .error _ => (some start_key, some end_key)
    | start_key, end_key => (start_key, end_key)
  { parent_job_id := parent_job.id
    asset_id := asset.1
    asset_name := asset.2.1
    idempotency_key := "upstream:" ++ parent_job.idempotency_key ++ ":" ++ asset.1.to_string ++
      ":" ++ toString asset.2.2
    partition_start := range.1
    partition_end := range.2
    execution_order := max_depth - asset.2.2 }

/-- `str::contains`. -/
def contains (text pattern : String) : Bool :=
  text.toList.tails.any (fun rest => pattern.toList.isPrefixOf rest)

/-- A creation error that counts as "already exists". -/
def StorageError.is_duplicate (e : StorageError) : Bool :=
  contains e.to_string "duplicate" || contains e.to_string "unique"

/-- The child counter after a creation error. -/
def created_after_error (created_count : Nat) (e : StorageError) : Nat :=
  if e.is_duplicate then created_count + 1 else created_count

/-- What follows the asset read: with nothing to check the partition is ready. -/
def after_asset_read (D : Deployment) (l : PartitionLoop) (partition : BackfillPartitionModel)
    (partition_config : Option PartitionConfig) : Pc :=
  match l.upstream_cache with
  | none => .executing l partition
  | some cache =>
    match (D.resolve_upstream_partitions partition.partition_key partition_config cache).flatMap
        (fun (asset_id, keys) => keys.map (fun key => (asset_id, key))) with
    | [] => .executing l partition
    | todo => .checking_upstream l partition todo

/-- What follows the final transition: a child job notifies its parent. -/
def after_finish (l : PartitionLoop) : Pc :=
  match l.job.parent_job_id with
  | none => .idle
  | some parent_id =>
    match l.final_state with
    | .completed => .incrementing l.job parent_id
    | .failed => .failing_parent l.job parent_id
    -- Cancelled or other states: the parent handles its own cancellation
    | _ => .idle

/-! ### One call -/

/-- The pending call returns an error: most callers pass it on with `?`. -/
def Pc.on_error (config : BackfillExecutorConfig) (e : StorageError) : Pc → Pc
  | .discovering job => .failing_discovery job e
  -- Continue with other children
  | .creating_children job (_ :: todo) max_depth created_count =>
    next_child job todo max_depth (created_after_error created_count e)
  -- `.ok()`: the loop goes on without a cache
  | .loading_cache job => .checking_cancelled (.start job none)
  -- `execute_partition` returns the error, and the loop counts it
  | .reading_asset l p | .checking_upstream l p _ | .requeueing l p | .completing l p _
  | .failing l p _ => .reporting (l.partition_err p config.max_partition_retries)
  | .executing l p => .failing l p e.to_string
  | _ => .idle

/-- The result of a call without a value: on success the tables and the next
    program counter, on failure the tables as they were. -/
def finish_call (config : BackfillExecutorConfig) (db : Db) (pc next : Pc) :
    Except StorageError Db → Option (Db × Pc)
  | .ok db' => some (db', next)
  | .error e => some (db, pc.on_error config e)

/-- One call of executor `e`; `none` when the action is not the pending call. -/
def Pc.step (D : Deployment) (e : ExecutorId) (db : Db) (pc : Pc) (a : Action) :
    Option (Db × Pc) :=
  match a, pc with
  | .claim_pending_backfill_job now locked, .idle =>
    match db.claim_pending_backfill_job (D.config e).stale_heartbeat_threshold (D.tenant_id e) now
        locked with
    | some (job, db') => some (db', process_job job)
    | none => some (db, .idle)
  | .discover_upstream_assets reads, .discovering job =>
    some (db, after_discovery job
      (discover_upstream_assets reads job.asset_id job.max_upstream_depth))
  | .create_upstream_child_job up down id now, .creating_children job (asset :: todo) max_depth n =>
    finish_call (D.config e) db pc (next_child job todo max_depth (n + 1))
      (db.create_upstream_child_job (D.child_params job asset max_depth up down) (D.tenant_id e)
        id now)
  | .update_backfill_upstream_count, .counting_children job n =>
    finish_call (D.config e) db pc (.entering_wait job)
      (db.update_backfill_upstream_count job.id n (D.tenant_id e))
  | .transition_backfill_job_state now, .failing_discovery job err =>
    finish_call (D.config e) db pc .idle
      (db.transition_backfill_job_state job.id .running .failed
        (some ("Upstream discovery failed: " ++ err.to_string)) (D.tenant_id e) now)
  | .transition_backfill_job_state now, .entering_wait job =>
    finish_call (D.config e) db pc .idle
      (db.transition_backfill_job_state job.id .running .waiting_upstream none (D.tenant_id e) now)
  | .transition_backfill_job_state now, .finishing l =>
    -- The parent of a child is notified once this has committed
    finish_call (D.config e) db pc (after_finish l)
      (db.transition_backfill_job_state l.job.id .running l.final_state
        (l.error_message (D.config e).max_partition_retries) (D.tenant_id e) now)
  | .load_upstream_dependency_cache deps get_asset, .loading_cache job =>
    some (db, .checking_cancelled (.start job (load_upstream_dependency_cache deps get_asset)))
  | .is_backfill_job_cancelled, .checking_cancelled l =>
    some (db, if db.is_backfill_job_cancelled l.job.id (D.tenant_id e) then .idle
      else .checking_paused l)
  | .is_backfill_job_paused, .checking_paused l =>
    some (db, if db.is_backfill_job_paused l.job.id (D.tenant_id e) then .idle else .beating l)
  | .update_backfill_job_heartbeat now, .beating l =>
    some (db.update_backfill_job_heartbeat l.job.id (D.tenant_id e) now, .claiming_partition l)
  | .claim_pending_partition now locked, .claiming_partition l =>
    match db.claim_pending_partition l.job.id (D.config e).max_partition_retries (D.tenant_id e)
        now locked with
    | some (p, db') => some (db', .reading_asset l p)
    -- No more partitions to process - job is done
    | none => some (db, .finishing l)
  | .get_asset partition_config, .reading_asset l p =>
    some (db, after_asset_read D l p partition_config)
  | .is_partition_completed, .checking_upstream l p ((asset_id, key) :: todo) =>
    some (db,
      if db.is_partition_completed asset_id key (D.tenant_id e) then
        if todo = [] then .executing l p else .checking_upstream l p todo
      else .requeueing l p)
  | .requeue_backfill_partition, .requeueing l p =>
    -- `execute_partition` returns `Ok(())`, which the loop counts as a completion
    finish_call (D.config e) db pc (.reporting (l.partition_ok p))
      (db.requeue_backfill_partition p.id (D.tenant_id e))
  | .execute_asset_partition outcome, .executing l p =>
    some (db,
      match outcome with
      | .ok execution_id => .completing l p execution_id
      | .error err => .failing l p err)
  | .complete_backfill_partition duration_ms now, .completing l p execution_id =>
    finish_call (D.config e) db pc (.reporting (l.partition_ok p))
      (db.complete_backfill_partition p.id (some execution_id) duration_ms (D.tenant_id e) now)
  | .fail_backfill_partition duration_ms now, .failing l p err =>
    -- If the DB update fails, the execution error is still what is returned
    finish_call (D.config e) db pc
      (.reporting (l.partition_err p (D.config e).max_partition_retries))
      (db.fail_backfill_partition p.id err duration_ms (D.tenant_id e) now)
  | .update_backfill_job_progress_with_eta now, .reporting l =>
    some (db.update_backfill_job_progress_with_eta l.job.id l.progress (D.tenant_id e) now,
      .checking_cancelled l)
  -- The child is in its final state already, and nobody repeats a call that fails here
  | .increment_completed_upstream, .incrementing child parent_id =>
    finish_call (D.config e) db pc (.releasing child parent_id)
      (db.increment_completed_upstream parent_id (D.tenant_id e))
  | .try_transition_parent_to_pending, .releasing _ parent_id =>
    some ((db.try_transition_parent_to_pending parent_id (D.tenant_id e)).2, .idle)
  | .fail_parent_on_child_failure now, .failing_parent child parent_id =>
    some ((db.fail_parent_on_child_failure parent_id child.id child.asset_name (D.tenant_id e)
      now).2, .idle)
  | .call_fails err, pc => some (db, pc.on_error (D.config e) err)
  | .crash, _ => some (db, .idle)
  | _, _ => none

end Servo
