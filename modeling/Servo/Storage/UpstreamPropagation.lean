import Servo.Storage.BackfillJobs
import Mathlib.Data.List.Sort

/-! # Upstream Propagation Operations of the Storage Layer

    Discovery of the upstream assets of a job, creation of its child jobs,
    and the two counters through which the children release their parent.

    `discover_upstream_assets` reads the asset tables in a transaction of its
    own for each asset it visits. What these reads return is a parameter
    (`DependencyReads`): since no asset is visited twice, a function from
    assets to answers covers every interleaving of the reads with other
    writers of the asset tables, and every pattern of read errors.
-/

namespace Servo

/-! ### Discovery -/

/-- The answers to the reads of one discovery. -/
structure DependencyReads where
  /-- `list_assets`, as pairs of id and name. -/
  list_assets : Except StorageError (List (Uuid × String))
  /-- `get_upstream_dependencies`, the upstream asset of each dependency row. -/
  get_upstream_dependencies : Uuid → Except StorageError (List Uuid)

/-- A discovered asset: its id, its name, and its BFS depth. -/
abbrev UpstreamAsset : Type := Uuid × String × Int

/-- Safety limit on the number of discovered assets. -/
def MAX_ASSETS : Nat := 100

/-- Enqueue the dependencies that have not been visited. -/
def enqueue_unvisited (depth : Int) (deps : List Uuid) (queue : List (Uuid × Int))
    (visited : List Uuid) : List (Uuid × Int) × List Uuid :=
  deps.foldl
    (fun (queue, visited) dep =>
      if visited.contains dep then (queue, visited) else (queue ++ [(dep, depth)], dep :: visited))
    (queue, visited)

/-- The `while let` loop of the search. `capacity` counts down from `MAX_ASSETS`:
    every iteration discovers one asset, and the loop breaks at the limit. -/
def discover_loop (reads : DependencyReads) (asset_names : List (Uuid × String))
    (max_depth : Int) : (capacity : Nat) → List (Uuid × Int) → List Uuid →
      List UpstreamAsset → Except StorageError (List UpstreamAsset)
  | 0, _, _, upstream_assets => .ok upstream_assets
  | _ + 1, [], _, upstream_assets => .ok upstream_assets
  | capacity + 1, (current_asset_id, depth) :: queue, visited, upstream_assets =>
    let name := ((asset_names.find? (fun a => a.1 = current_asset_id)).map (·.2)).getD
      ("asset-" ++ current_asset_id.to_string)
    let upstream_assets := upstream_assets ++ [(current_asset_id, name, depth)]
    -- a negative limit is no limit
    if max_depth < 0 ∨ depth < max_depth then
      match reads.get_upstream_dependencies current_asset_id with
      | .error e => .error e
      | .ok deps =>
        let (queue, visited) := enqueue_unvisited (depth + 1) deps queue visited
        discover_loop reads asset_names max_depth capacity queue visited upstream_assets
    else
      discover_loop reads asset_names max_depth capacity queue visited upstream_assets

/-- `discover_upstream_assets`: breadth-first search over the dependency rows,
    sorted by depth, deepest first. -/
def discover_upstream_assets (reads : DependencyReads) (asset_id : Uuid) (max_depth : Int) :
    Except StorageError (List UpstreamAsset) :=
  if max_depth = 0 then .ok []
  else
    match reads.list_assets with
    | .error e => .error e
    | .ok asset_names =>
      match reads.get_upstream_dependencies asset_id with
      | .error e => .error e
      | .ok deps =>
        -- only a dependency of the asset on itself counts as a cycle
        if deps.contains asset_id then
          .error (.ValidationError ("Cycle detected: asset " ++ asset_id.to_string ++
            " depends on itself"))
        else
          let (queue, visited) := enqueue_unvisited 1 deps [] [asset_id]
          match discover_loop reads asset_names max_depth MAX_ASSETS queue visited [] with
          | .error e => .error e
          | .ok upstream_assets =>
            .ok (upstream_assets.insertionSort (fun a b => b.2.2 ≤ a.2.2))

/-! ### Counters and transitions of the parent -/

namespace BackfillJobModel

/-- The CHECK of `increment_completed_upstream` on the updated row. -/
def may_increment (job : BackfillJobModel) : Bool :=
  job.completed_upstream_jobs + 1 ≤ job.upstream_job_count

/-- SET clause of `increment_completed_upstream`; rows that would violate
    `valid_upstream_counts` are left alone. -/
def upstreamIncremented (job : BackfillJobModel) : BackfillJobModel :=
  if h : job.completed_upstream_jobs + 1 ≤ job.upstream_job_count then
    { job with
      completed_upstream_jobs := job.completed_upstream_jobs + 1
      version := job.version + 1
      valid_upstream_counts :=
        ⟨job.valid_upstream_counts.1, by have := job.valid_upstream_counts.2.1; omega, h⟩ }
  else job

/-- SET clause of `update_backfill_upstream_count`; rows that would violate
    `valid_upstream_counts` are left alone. -/
def upstreamCounted (job : BackfillJobModel) (count : Int) : BackfillJobModel :=
  if h : job.completed_upstream_jobs ≤ count then
    { job with
      upstream_job_count := count
      version := job.version + 1
      valid_upstream_counts :=
        ⟨job.valid_upstream_counts.2.1.trans h, job.valid_upstream_counts.2.1, h⟩ }
  else job

/-- The guard of `try_transition_parent_to_pending`. -/
def releasable (job : BackfillJobModel) : Bool :=
  job.state = .waiting_upstream && 0 < job.upstream_job_count &&
    job.upstream_job_count ≤ job.completed_upstream_jobs

/-- SET clause of `try_transition_parent_to_pending`. -/
def releasedToPending (job : BackfillJobModel) : BackfillJobModel :=
  { job with state := .pending, version := job.version + 1 }

/-- SET clause of `fail_parent_on_child_failure`. -/
def failedByChild (job : BackfillJobModel) (error_message : String) (now : DateTime) :
    BackfillJobModel :=
  { job with
    state := .failed
    error_message := some error_message
    completed_at := some now
    version := job.version + 1 }

end BackfillJobModel

/-- The error of a write that `valid_upstream_counts` rejects. -/
def upstream_counts_violation : StorageError :=
  .ValidationError ("Constraint violation: new row for relation \"backfill_jobs\" violates " ++
    "check constraint \"valid_upstream_counts\"")

/-- `increment_completed_upstream`. -/
def Db.increment_completed_upstream (db : Db) (parent_job_id : Uuid) (tenant_id : TenantId) :
    Except StorageError Db :=
  match db.update_job_where tenant_id parent_job_id (·.may_increment) (·.upstreamIncremented)
      (by intro job; unfold BackfillJobModel.upstreamIncremented; split <;> exact ⟨rfl, rfl⟩) with
  | some db' => .ok db'
  | none =>
    if (db.job? parent_job_id).any (·.tenant_id = tenant_id) then .error upstream_counts_violation
    else .error (.NotFound ("Parent backfill job " ++ parent_job_id.to_string ++ " not found"))

/-- `update_backfill_upstream_count`. -/
def Db.update_backfill_upstream_count (db : Db) (job_id : Uuid) (count : Int)
    (tenant_id : TenantId) : Except StorageError Db :=
  match db.update_job_where tenant_id job_id (fun job => job.completed_upstream_jobs ≤ count)
      (·.upstreamCounted count)
      (by intro job; unfold BackfillJobModel.upstreamCounted; split <;> exact ⟨rfl, rfl⟩) with
  | some db' => .ok db'
  | none =>
    if (db.job? job_id).any (·.tenant_id = tenant_id) then .error upstream_counts_violation
    else .ok db

/-- `try_transition_parent_to_pending`. Returns whether the parent was released. -/
def Db.try_transition_parent_to_pending (db : Db) (parent_job_id : Uuid)
    (tenant_id : TenantId) : Bool × Db :=
  match db.update_job_where tenant_id parent_job_id (·.releasable) (·.releasedToPending)
      (fun _ => ⟨rfl, rfl⟩) with
  | some db' => (true, db')
  | none => (false, db)

/-- `fail_parent_on_child_failure`. Returns whether the parent was failed. -/
def Db.fail_parent_on_child_failure (db : Db) (parent_job_id child_job_id : Uuid)
    (child_asset_name : String) (tenant_id : TenantId) (now : DateTime) : Bool × Db :=
  match db.update_job_where tenant_id parent_job_id (fun job => job.state = .waiting_upstream)
      (·.failedByChild ("Upstream job " ++ child_job_id.to_string ++ " for asset '" ++
        child_asset_name ++ "' failed") now)
      (fun _ => ⟨rfl, rfl⟩) with
  | some db' => (true, db')
  | none => (false, db)

/-! ### Child jobs -/

/-- The row `create_upstream_child_job` inserts: the columns it does not name take
    their defaults, so a child job has no partition keys and
    `total_partitions = 0`. -/
def CreateUpstreamChildJobParams.row (params : CreateUpstreamChildJobParams)
    (tenant_id : TenantId) (id : Uuid) (now : DateTime) : BackfillJobModel where
  id := id
  tenant_id := tenant_id
  asset_id := params.asset_id
  asset_name := params.asset_name
  idempotency_key := params.idempotency_key
  state := .pending
  partition_start := params.partition_start
  partition_end := params.partition_end
  partition_keys := []
  total_partitions := 0
  completed_partitions := 0
  failed_partitions := 0
  skipped_partitions := 0
  include_upstream := false
  error_message := none
  created_at := now
  started_at := none
  completed_at := none
  heartbeat_at := none
  version := 1
  paused_at := none
  checkpoint_partition_key := none
  parent_job_id := some params.parent_job_id
  max_upstream_depth := 0
  upstream_job_count := 0
  completed_upstream_jobs := 0
  execution_order := params.execution_order
  priority := 0
  valid_upstream_counts := new_upstream_counts
  valid_upstream_depth := by decide
  valid_priority := by decide

/-- `create_upstream_child_job`; `id` is the value of `gen_random_uuid()`. -/
def Db.create_upstream_child_job (db : Db) (params : CreateUpstreamChildJobParams)
    (tenant_id : TenantId) (id : Uuid) (now : DateTime) : Except StorageError Db :=
  match db.backfill_jobs.insert? (params.row tenant_id id now) with
  | some jobs => .ok { db with backfill_jobs := jobs }
  | none => .error (db.job_unique_violation (params.row tenant_id id now))

end Servo
