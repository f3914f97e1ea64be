import Servo.Storage.BackfillPartitions
import Servo.Storage.UpstreamPropagation

/-! # What the Storage Operations Do to Rows

    One specification lemma for each operation: which row it found, with
    which columns, and which row it left in its place. Everything built on
    the storage layer uses these lemmas and never unfolds an operation.

    Almost every operation replaces one row and leaves all others alone,
    which is `Db.SetsJob` and `Db.SetsPartition`. The columns no operation
    changes are collected in `identity`.
-/

namespace Servo

/-! ### Columns written once -/

/-- The columns of a job that are written at insertion and never again. -/
structure JobIdentity where
  id : Uuid
  tenant_id : TenantId
  asset_id : Uuid
  asset_name : String
  idempotency_key : String
  partition_start : Option String
  partition_end : Option String
  partition_keys : List String
  total_partitions : Int
  include_upstream : Bool
  parent_job_id : Option Uuid
  max_upstream_depth : Int
  execution_order : Int

/-- The columns of a partition that are written at insertion and never again. -/
structure PartitionIdentity where
  id : Uuid
  backfill_job_id : Uuid
  partition_key : String
  tenant_id : TenantId

namespace BackfillJobModel

def identity (job : BackfillJobModel) : JobIdentity where
  id := job.id
  tenant_id := job.tenant_id
  asset_id := job.asset_id
  asset_name := job.asset_name
  idempotency_key := job.idempotency_key
  partition_start := job.partition_start
  partition_end := job.partition_end
  partition_keys := job.partition_keys
  total_partitions := job.total_partitions
  include_upstream := job.include_upstream
  parent_job_id := job.parent_job_id
  max_upstream_depth := job.max_upstream_depth
  execution_order := job.execution_order

variable (job : BackfillJobModel)

@[simp] theorem identity_claimed (now : DateTime) :
    (job.claimed now).identity = job.identity := rfl

@[simp] theorem identity_transitioned (to_state : BackfillState) (msg : Option String)
    (now : DateTime) : (job.transitioned to_state msg now).identity = job.identity := rfl

@[simp] theorem identity_cancelledFor (reason : String) (now : DateTime) :
    (job.cancelledFor reason now).identity = job.identity := rfl

@[simp] theorem identity_pausedAt (checkpoint : Option String) (now : DateTime) :
    (job.pausedAt checkpoint now).identity = job.identity := rfl

@[simp] theorem identity_resumed (now : DateTime) :
    (job.resumed now).identity = job.identity := rfl

@[simp] theorem identity_heartbeat (now : DateTime) :
    (job.heartbeat now).identity = job.identity := rfl

@[simp] theorem identity_progressed (progress : BackfillProgressUpdate) (now : DateTime) :
    (job.progressed progress now).identity = job.identity := rfl

@[simp] theorem identity_upstreamIncremented :
    job.upstreamIncremented.identity = job.identity := by
  unfold upstreamIncremented
  split <;> rfl

@[simp] theorem identity_upstreamCounted (count : Int) :
    (job.upstreamCounted count).identity = job.identity := by
  unfold upstreamCounted
  split <;> rfl

@[simp] theorem identity_releasedToPending :
    job.releasedToPending.identity = job.identity := rfl

@[simp] theorem identity_failedByChild (msg : String) (now : DateTime) :
    (job.failedByChild msg now).identity = job.identity := rfl

/-! The two SET clauses that respect a CHECK change only their own columns. -/

@[simp] theorem state_upstreamIncremented : job.upstreamIncremented.state = job.state := by
  unfold upstreamIncremented
  split <;> rfl

@[simp] theorem state_upstreamCounted (count : Int) :
    (job.upstreamCounted count).state = job.state := by
  unfold upstreamCounted
  split <;> rfl

theorem upstreamIncremented_eq (h : job.may_increment = true) :
    job.upstreamIncremented.completed_upstream_jobs = job.completed_upstream_jobs + 1 ∧
      job.upstreamIncremented.upstream_job_count = job.upstream_job_count := by
  unfold may_increment at h
  simp only [decide_eq_true_eq] at h
  unfold upstreamIncremented
  rw [dif_pos h]
  exact ⟨rfl, rfl⟩

theorem upstreamCounted_eq {count : Int} (h : job.completed_upstream_jobs ≤ count) :
    (job.upstreamCounted count).completed_upstream_jobs = job.completed_upstream_jobs ∧
      (job.upstreamCounted count).upstream_job_count = count := by
  unfold upstreamCounted
  rw [dif_pos h]
  exact ⟨rfl, rfl⟩

/-- The columns of the progress record and the heartbeat. -/
def progress_columns : Int × Int × Int × Option String × Option DateTime :=
  (job.completed_partitions, job.failed_partitions, job.skipped_partitions,
    job.checkpoint_partition_key, job.heartbeat_at)

@[simp] theorem progress_columns_upstreamIncremented :
    job.upstreamIncremented.progress_columns = job.progress_columns := by
  unfold upstreamIncremented
  split <;> rfl

@[simp] theorem progress_columns_upstreamCounted (count : Int) :
    (job.upstreamCounted count).progress_columns = job.progress_columns := by
  unfold upstreamCounted
  split <;> rfl

end BackfillJobModel

namespace BackfillPartitionModel

def identity (p : BackfillPartitionModel) : PartitionIdentity where
  id := p.id
  backfill_job_id := p.backfill_job_id
  partition_key := p.partition_key
  tenant_id := p.tenant_id

variable (p : BackfillPartitionModel)

@[simp] theorem identity_claimed (now : DateTime) : (p.claimed now).identity = p.identity := rfl

@[simp] theorem identity_completedBy (execution_id : Option Uuid) (duration_ms : Int)
    (now : DateTime) : (p.completedBy execution_id duration_ms now).identity = p.identity := rfl

@[simp] theorem identity_failedWith (msg : String) (duration_ms : Int) (now : DateTime) :
    (p.failedWith msg duration_ms now).identity = p.identity := rfl

@[simp] theorem identity_requeued : p.requeued.identity = p.identity := rfl

@[simp] theorem identity_skippedFor (msg : String) (now : DateTime) :
    (p.skippedFor msg now).identity = p.identity := rfl

end BackfillPartitionModel

namespace Db

variable {db db' : Db} {job_id : Uuid} {tenant_id : TenantId} {now : DateTime}

/-! ### Replacing one row -/

/-- The job row `job` is replaced by `job'`; everything else is unchanged. -/
structure SetsJob (db : Db) (job job' : BackfillJobModel) (db' : Db) : Prop where
  found : db.job? job.id = some job
  job?_eq : ∀ id, db'.job? id = if id = job.id then some job' else db.job? id
  partitions_eq : db'.backfill_partitions = db.backfill_partitions

/-- The partition row `p` is replaced by `p'`; everything else is unchanged. -/
structure SetsPartition (db : Db) (p p' : BackfillPartitionModel) (db' : Db) : Prop where
  found : db.partition? p.id = some p
  partition?_eq : ∀ id, db'.partition? id = if id = p.id then some p' else db.partition? id
  jobs_eq : db'.backfill_jobs = db.backfill_jobs

theorem id_of_job? {job : BackfillJobModel} (h : db.job? job_id = some job) : job.id = job_id :=
  Table.key_of_find? h

theorem id_of_partition? {partition_id : Uuid} {p : BackfillPartitionModel}
    (h : db.partition? partition_id = some p) : p.id = partition_id :=
  Table.key_of_find? h

/-- Modifying the rows with one id replaces that row. -/
theorem sets_job_of_modify {job : BackfillJobModel} {f : BackfillJobModel → BackfillJobModel}
    {hf : ∀ job, (f job).id = job.id ∧
      ((f job).tenant_id, (f job).idempotency_key) = (job.tenant_id, job.idempotency_key)}
    (h : db.job? job_id = some job) :
    db.SetsJob job (f job)
      { db with backfill_jobs := db.backfill_jobs.modify (fun j => j.id = job_id) f hf } := by
  have hid := id_of_job? h
  subst hid
  refine ⟨h, fun id => ?_, rfl⟩
  simp only [job?, Table.find?_modify]
  by_cases hk : id = job.id
  · subst hk
    rw [if_pos rfl, show db.backfill_jobs.find? job.id = some job from h]
    simp
  · rw [if_neg hk]
    cases hfind : db.backfill_jobs.find? id with
    | none => rfl
    | some job₀ =>
      have hne : job₀.id ≠ job.id := (Table.key_of_find? hfind).trans_ne hk
      simp [hne]

theorem sets_partition_of_modify {partition_id : Uuid} {p : BackfillPartitionModel}
    {f : BackfillPartitionModel → BackfillPartitionModel}
    {hf : ∀ p, (f p).id = p.id ∧
      ((f p).backfill_job_id, (f p).partition_key) = (p.backfill_job_id, p.partition_key)}
    (h : db.partition? partition_id = some p) :
    db.SetsPartition p (f p)
      { db with
        backfill_partitions :=
          db.backfill_partitions.modify (fun q => q.id = partition_id) f hf } := by
  have hid := id_of_partition? h
  subst hid
  refine ⟨h, fun id => ?_, rfl⟩
  simp only [partition?, Table.find?_modify]
  by_cases hk : id = p.id
  · subst hk
    rw [if_pos rfl, show db.backfill_partitions.find? p.id = some p from h]
    simp
  · rw [if_neg hk]
    cases hfind : db.backfill_partitions.find? id with
    | none => rfl
    | some p₀ =>
      have hne : p₀.id ≠ p.id := (Table.key_of_find? hfind).trans_ne hk
      simp [hne]

/-- A guarded update replaces a row that meets the guard. -/
theorem update_job_where_eq_some {guard : BackfillJobModel → Bool}
    {f : BackfillJobModel → BackfillJobModel}
    {hf : ∀ job, (f job).id = job.id ∧
      ((f job).tenant_id, (f job).idempotency_key) = (job.tenant_id, job.idempotency_key)}
    (h : db.update_job_where tenant_id job_id guard f hf = some db') :
    ∃ job, job.id = job_id ∧ job.tenant_id = tenant_id ∧ guard job = true ∧
      db.SetsJob job (f job) db' := by
  unfold update_job_where at h
  split at h
  · next job hjob =>
    split at h
    · next hguard =>
      cases h
      exact ⟨job, id_of_job? hjob, hguard.1, hguard.2, sets_job_of_modify hjob⟩
    · cases h
  · cases h

/-- The same, for a guard that is a decidable condition. -/
theorem update_job_where_decide_eq_some {guard : BackfillJobModel → Prop} [DecidablePred guard]
    {f : BackfillJobModel → BackfillJobModel}
    {hf : ∀ job, (f job).id = job.id ∧
      ((f job).tenant_id, (f job).idempotency_key) = (job.tenant_id, job.idempotency_key)}
    (h : db.update_job_where tenant_id job_id (fun job => guard job) f hf = some db') :
    ∃ job, job.id = job_id ∧ job.tenant_id = tenant_id ∧ guard job ∧
      db.SetsJob job (f job) db' := by
  obtain ⟨job, hid, htenant, hguard, hsets⟩ := update_job_where_eq_some h
  exact ⟨job, hid, htenant, of_decide_eq_true hguard, hsets⟩

/-- A guarded update has no effect only when no row meets the guard. -/
theorem update_job_where_eq_none {guard : BackfillJobModel → Bool}
    {f : BackfillJobModel → BackfillJobModel}
    {hf : ∀ job, (f job).id = job.id ∧
      ((f job).tenant_id, (f job).idempotency_key) = (job.tenant_id, job.idempotency_key)}
    (h : db.update_job_where tenant_id job_id guard f hf = none) {job : BackfillJobModel}
    (hjob : db.job? job_id = some job) (htenant : job.tenant_id = tenant_id) :
    guard job = false := by
  unfold update_job_where at h
  rw [hjob] at h
  simpa [htenant] using h

theorem update_running_partition_eq_ok {partition_id : Uuid}
    {f : BackfillPartitionModel → BackfillPartitionModel}
    {hf : ∀ p, (f p).id = p.id ∧
      ((f p).backfill_job_id, (f p).partition_key) = (p.backfill_job_id, p.partition_key)}
    (h : db.update_running_partition partition_id tenant_id f hf = .ok db') :
    ∃ p, p.id = partition_id ∧ p.tenant_id = tenant_id ∧ p.state = .running ∧
      db.SetsPartition p (f p) db' := by
  unfold update_running_partition at h
  split at h
  · next p hp =>
    split at h
    · next hguard =>
      cases h
      exact ⟨p, id_of_partition? hp, hguard.1, hguard.2, sets_partition_of_modify hp⟩
    · cases h
  · cases h

theorem update_running_partition_eq_error {partition_id : Uuid}
    {f : BackfillPartitionModel → BackfillPartitionModel}
    {hf : ∀ p, (f p).id = p.id ∧
      ((f p).backfill_job_id, (f p).partition_key) = (p.backfill_job_id, p.partition_key)}
    {e : StorageError} (h : db.update_running_partition partition_id tenant_id f hf = .error e)
    {p : BackfillPartitionModel} (hp : db.partition? partition_id = some p)
    (htenant : p.tenant_id = tenant_id) : p.state ≠ .running := by
  unfold update_running_partition at h
  rw [hp] at h
  intro hstate
  simp [htenant, hstate] at h

/-! ### Operations on jobs -/

theorem claim_pending_backfill_job_eq_some {threshold : Int} {locked : List Uuid}
    {job : BackfillJobModel}
    (h : db.claim_pending_backfill_job threshold tenant_id now locked = some (job, db')) :
    ∃ row, row.tenant_id = tenant_id ∧ row.claimable threshold now = true ∧
      job = row.claimed now ∧ db.SetsJob row job db' := by
  unfold claim_pending_backfill_job at h
  split at h
  · next row hrow =>
    cases h
    obtain ⟨hfind, hguard⟩ := Table.selectFirst_eq_some hrow
    simp only [Bool.and_eq_true, decide_eq_true_eq] at hguard
    exact ⟨row, hguard.1.1, hguard.1.2, rfl, sets_job_of_modify (f := (·.claimed now)) hfind⟩
  · cases h

theorem transition_backfill_job_state_eq_ok {from_state to_state : BackfillState}
    {msg : Option String}
    (h : db.transition_backfill_job_state job_id from_state to_state msg tenant_id now = .ok db') :
    ∃ row, row.id = job_id ∧ row.tenant_id = tenant_id ∧ row.state = from_state ∧
      db.SetsJob row (row.transitioned to_state msg now) db' := by
  unfold transition_backfill_job_state at h
  split at h
  · split at h
    · next hupd =>
      cases h
      exact update_job_where_decide_eq_some hupd
    · cases h
  · cases h

/-- Only a transition that the table allows succeeds. -/
theorem validate_of_transition_eq_ok {from_state to_state : BackfillState} {msg : Option String}
    (h : db.transition_backfill_job_state job_id from_state to_state msg tenant_id now = .ok db') :
    validate_backfill_state_transition from_state to_state = true := by
  unfold transition_backfill_job_state at h
  split at h
  · next hvalid => exact hvalid
  · cases h

/-- An allowed transition is refused only when the job is not in its source state. -/
theorem transition_backfill_job_state_eq_error {from_state to_state : BackfillState}
    {msg : Option String} {e : StorageError}
    (hvalid : validate_backfill_state_transition from_state to_state = true)
    (h : db.transition_backfill_job_state job_id from_state to_state msg tenant_id now = .error e)
    {row : BackfillJobModel} (hrow : db.job? job_id = some row)
    (htenant : row.tenant_id = tenant_id) : row.state ≠ from_state := by
  unfold transition_backfill_job_state at h
  rw [if_pos hvalid] at h
  split at h
  · cases h
  · next hupd => exact of_decide_eq_false (update_job_where_eq_none hupd hrow htenant)

theorem pause_backfill_job_eq_ok (h : db.pause_backfill_job job_id tenant_id now = .ok db') :
    ∃ row, row.id = job_id ∧ row.tenant_id = tenant_id ∧ row.state = .running ∧
      db.SetsJob row (row.pausedAt (db.last_completed_partition job_id tenant_id) now) db' := by
  unfold pause_backfill_job at h
  split at h
  · next hupd =>
    cases h
    exact update_job_where_decide_eq_some hupd
  · split at h <;> cases h

theorem resume_backfill_job_eq_ok (h : db.resume_backfill_job job_id tenant_id now = .ok db') :
    ∃ row, row.id = job_id ∧ row.tenant_id = tenant_id ∧ row.state = .paused ∧
      db.SetsJob row (row.resumed now) db' := by
  unfold resume_backfill_job at h
  split at h
  · next hupd =>
    cases h
    exact update_job_where_decide_eq_some hupd
  · split at h <;> cases h

/-- An update of a running job that is silent otherwise reaches the row exactly when the job
    runs. -/
theorem update_running_job_cases {f : BackfillJobModel → BackfillJobModel}
    (hf : ∀ job, (f job).id = job.id ∧
      ((f job).tenant_id, (f job).idempotency_key) = (job.tenant_id, job.idempotency_key))
    (h : db' = (db.update_job_where tenant_id job_id (fun job => job.state = .running) f hf).getD
      db) :
    (∃ row, row.id = job_id ∧ row.tenant_id = tenant_id ∧ row.state = .running ∧
      db.SetsJob row (f row) db') ∨
    (db' = db ∧
      ∀ row, db.job? job_id = some row → row.tenant_id = tenant_id → row.state ≠ .running) := by
  cases hupd : db.update_job_where tenant_id job_id (fun job => job.state = .running) f hf with
  | some db₁ =>
    rw [hupd, Option.getD_some] at h
    subst h
    exact Or.inl (update_job_where_decide_eq_some hupd)
  | none =>
    rw [hupd, Option.getD_none] at h
    refine Or.inr ⟨h, fun row hrow htenant => ?_⟩
    exact of_decide_eq_false (update_job_where_eq_none hupd hrow htenant)

/-- The heartbeat reaches the row exactly when the job runs. -/
theorem update_backfill_job_heartbeat_cases :
    (∃ row, row.id = job_id ∧ row.tenant_id = tenant_id ∧ row.state = .running ∧
      db.SetsJob row (row.heartbeat now) (db.update_backfill_job_heartbeat job_id tenant_id now)) ∨
    (db.update_backfill_job_heartbeat job_id tenant_id now = db ∧
      ∀ row, db.job? job_id = some row → row.tenant_id = tenant_id → row.state ≠ .running) :=
  update_running_job_cases (f := (·.heartbeat now)) (fun _ => ⟨rfl, rfl⟩) rfl

/-- The counters reach the row exactly when the job runs. -/
theorem update_backfill_job_counters_cases {completed failed skipped : Int} :
    (∃ row, row.id = job_id ∧ row.tenant_id = tenant_id ∧ row.state = .running ∧
      db.SetsJob row (row.counted completed failed skipped now)
        (db.update_backfill_job_progress job_id completed failed skipped tenant_id now)) ∨
    (db.update_backfill_job_progress job_id completed failed skipped tenant_id now = db ∧
      ∀ row, db.job? job_id = some row → row.tenant_id = tenant_id → row.state ≠ .running) :=
  update_running_job_cases (f := (·.counted completed failed skipped now))
    (fun _ => ⟨rfl, rfl⟩) rfl

/-- The progress record reaches the row exactly when the job runs. -/
theorem update_backfill_job_progress_cases {progress : BackfillProgressUpdate} :
    (∃ row, row.id = job_id ∧ row.tenant_id = tenant_id ∧ row.state = .running ∧
      db.SetsJob row (row.progressed progress now)
        (db.update_backfill_job_progress_with_eta job_id progress tenant_id now)) ∨
    (db.update_backfill_job_progress_with_eta job_id progress tenant_id now = db ∧
      ∀ row, db.job? job_id = some row → row.tenant_id = tenant_id → row.state ≠ .running) :=
  update_running_job_cases (f := (·.progressed progress now)) (fun _ => ⟨rfl, rfl⟩) rfl

theorem update_backfill_job_eq_ok {job : BackfillJobModel}
    (h : db.update_backfill_job job tenant_id = .ok db') :
    ∃ row, row.id = job.id ∧ row.tenant_id = tenant_id ∧ row.version = job.version ∧
      db.SetsJob row (row.updatedTo job) db' := by
  unfold update_backfill_job at h
  split at h
  · next hupd =>
    cases h
    exact update_job_where_decide_eq_some hupd
  · cases h

theorem get_backfill_job_eq_ok {job : BackfillJobModel}
    (h : db.get_backfill_job job_id tenant_id = .ok job) :
    db.job? job_id = some job ∧ job.tenant_id = tenant_id := by
  unfold get_backfill_job at h
  split at h
  · next hfound =>
    cases h
    obtain ⟨hrow, htenant⟩ := Option.filter_eq_some_iff.mp hfound
    exact ⟨hrow, of_decide_eq_true htenant⟩
  · cases h

theorem increment_completed_upstream_eq_ok
    (h : db.increment_completed_upstream job_id tenant_id = .ok db') :
    ∃ row, row.id = job_id ∧ row.tenant_id = tenant_id ∧ row.may_increment = true ∧
      db.SetsJob row row.upstreamIncremented db' := by
  unfold increment_completed_upstream at h
  split at h
  · next hupd =>
    cases h
    exact update_job_where_eq_some hupd
  · split at h <;> cases h

/-- An existing parent refuses the increment only through its CHECK. -/
theorem increment_completed_upstream_eq_error {e : StorageError}
    (h : db.increment_completed_upstream job_id tenant_id = .error e) {row : BackfillJobModel}
    (hrow : db.job? job_id = some row) (htenant : row.tenant_id = tenant_id) :
    row.may_increment = false := by
  unfold increment_completed_upstream at h
  split at h
  · cases h
  · next hupd => exact update_job_where_eq_none hupd hrow htenant

/-- The count reaches the row, or there is no such row. -/
theorem update_backfill_upstream_count_eq_ok {count : Int}
    (h : db.update_backfill_upstream_count job_id count tenant_id = .ok db') :
    (∃ row, row.id = job_id ∧ row.tenant_id = tenant_id ∧ row.completed_upstream_jobs ≤ count ∧
      db.SetsJob row (row.upstreamCounted count) db') ∨
    (db' = db ∧ ∀ row, db.job? job_id = some row → row.tenant_id ≠ tenant_id) := by
  unfold update_backfill_upstream_count at h
  split at h
  · next hupd =>
    cases h
    exact Or.inl (update_job_where_decide_eq_some hupd)
  · split at h
    · cases h
    · next hnone =>
      cases h
      refine Or.inr ⟨rfl, fun row hrow htenant => hnone ?_⟩
      rw [hrow]
      simp [htenant]

/-- The parent is released exactly when it is releasable. -/
theorem try_transition_parent_to_pending_cases :
    (∃ row, row.id = job_id ∧ row.tenant_id = tenant_id ∧ row.releasable = true ∧
      (db.try_transition_parent_to_pending job_id tenant_id).1 = true ∧
      db.SetsJob row row.releasedToPending
        (db.try_transition_parent_to_pending job_id tenant_id).2) ∨
    (db.try_transition_parent_to_pending job_id tenant_id = (false, db) ∧
      ∀ row, db.job? job_id = some row → row.tenant_id = tenant_id → row.releasable = false) := by
  unfold try_transition_parent_to_pending
  cases hupd : db.update_job_where tenant_id job_id (·.releasable) (·.releasedToPending)
      (fun _ => ⟨rfl, rfl⟩) with
  | some db' =>
    obtain ⟨row, hid, htenant, hguard, hsets⟩ := update_job_where_eq_some hupd
    exact Or.inl ⟨row, hid, htenant, hguard, rfl, hsets⟩
  | none => exact Or.inr ⟨rfl, fun row hrow htenant => update_job_where_eq_none hupd hrow htenant⟩

theorem fail_parent_on_child_failure_cases {child_id : Uuid} {child_name : String} :
    (∃ row msg, row.id = job_id ∧ row.tenant_id = tenant_id ∧ row.state = .waiting_upstream ∧
      db.SetsJob row (row.failedByChild msg now)
        (db.fail_parent_on_child_failure job_id child_id child_name tenant_id now).2) ∨
    (db.fail_parent_on_child_failure job_id child_id child_name tenant_id now).2 = db := by
  unfold fail_parent_on_child_failure
  split
  · next hupd =>
    obtain ⟨row, hid, htenant, hguard, hsets⟩ := update_job_where_eq_some hupd
    exact Or.inl ⟨row, _, hid, htenant, of_decide_eq_true hguard, hsets⟩
  · exact Or.inr rfl

/-! ### Cancellation -/

theorem cancel_backfill_job_eq_ok {reason : Option String}
    (h : db.cancel_backfill_job job_id reason tenant_id now = .ok db') :
    ∃ row, db.job? job_id = some row ∧ row.tenant_id = tenant_id ∧
      row.state.cancellable = true ∧
      (∀ id, db'.job? id =
        if id = job_id then some (row.cancelledFor (reason.getD "Cancelled by user") now)
        else db.job? id) ∧
      ∀ id, db'.partition? id = (db.partition? id).map (fun p =>
        if p.backfill_job_id = job_id ∧ p.tenant_id = tenant_id ∧ p.state = .pending then
          p.skippedFor "Job cancelled" now
        else p) := by
  unfold cancel_backfill_job at h
  split at h
  · next row hrow =>
    split at h
    · next htenant =>
      split at h
      · next hstate =>
        cases h
        have hid := id_of_job? hrow
        subst hid
        refine ⟨row, hrow, htenant, hstate, fun id => ?_, fun id => ?_⟩
        · exact (sets_job_of_modify (f := (·.cancelledFor (reason.getD "Cancelled by user") now))
            hrow).job?_eq id
        · simp [partition?, and_assoc]
      · cases h
    · cases h
  · cases h

theorem job?_cancel_job_tree (db : Db) (root_job_id : Uuid) (reason : String)
    (tenant_id : TenantId) (now : DateTime) (id : Uuid) :
    (db.cancel_job_tree root_job_id reason tenant_id now).2.job? id =
      (db.job? id).map (fun job =>
        if job.in_tree root_job_id tenant_id = true ∧ job.state.cancellable = true then
          job.cancelledFor reason now
        else job) := by
  simp [cancel_job_tree, job?]

theorem partition?_cancel_job_tree (db : Db) (root_job_id : Uuid) (reason : String)
    (tenant_id : TenantId) (now : DateTime) (id : Uuid) :
    (db.cancel_job_tree root_job_id reason tenant_id now).2.partition? id =
      (db.partition? id).map (fun p =>
        if p.state = .pending ∧ p.tenant_id = tenant_id ∧
            (db.job? p.backfill_job_id).any (·.in_tree root_job_id tenant_id) = true then
          p.skippedFor "Job tree cancelled" now
        else p) := by
  simp only [cancel_job_tree, partition?, Table.find?_modify]
  congr 1
  funext p
  simp only [Bool.and_eq_true, decide_eq_true_eq]
  congr 1
  exact propext (by tauto)

/-! ### Insertion of jobs -/

/-- A job row that did not exist has been inserted; nothing else has changed. -/
structure InsertsJob (db : Db) (job : BackfillJobModel) (db' : Db) : Prop where
  fresh : db.job? job.id = none
  job?_eq : ∀ id, db'.job? id = if id = job.id then some job else db.job? id
  partitions_eq : db'.backfill_partitions = db.backfill_partitions

/-- A partition row that did not exist has been inserted; nothing else has changed. -/
structure InsertsPartition (db : Db) (p : BackfillPartitionModel) (db' : Db) : Prop where
  fresh : db.partition? p.id = none
  partition?_eq : ∀ id, db'.partition? id = if id = p.id then some p else db.partition? id
  jobs_eq : db'.backfill_jobs = db.backfill_jobs

theorem inserts_job_of_insert? {job : BackfillJobModel} {jobs : BackfillJobs}
    (h : db.backfill_jobs.insert? job = some jobs) :
    db.InsertsJob job { db with backfill_jobs := jobs } where
  fresh := Table.find?_of_insert? h
  job?_eq := Table.find?_insert? h
  partitions_eq := rfl

theorem create_backfill_job_eq_ok {job : BackfillJobModel}
    (h : db.create_backfill_job job tenant_id = .ok db') :
    job.tenant_id = tenant_id ∧ db.InsertsJob job db' := by
  unfold create_backfill_job at h
  cases hname : validate_non_empty_string job.asset_name "Asset name" with
  | error e => simp [hname, bind, Except.bind] at h
  | ok _ =>
    cases hkey : validate_non_empty_string job.idempotency_key "Idempotency key" with
    | error e => simp [hname, hkey, bind, Except.bind] at h
    | ok _ =>
      simp only [hname, hkey, bind, Except.bind] at h
      split at h
      · next htenant =>
        split at h
        · next hins =>
          cases h
          exact ⟨htenant, inserts_job_of_insert? hins⟩
        · cases h
      · cases h

theorem create_upstream_child_job_eq_ok {params : CreateUpstreamChildJobParams} {id : Uuid}
    (h : db.create_upstream_child_job params tenant_id id now = .ok db') :
    db.InsertsJob (params.row tenant_id id now) db' := by
  unfold create_upstream_child_job at h
  split at h
  · next hins =>
    cases h
    exact inserts_job_of_insert? hins
  · cases h

/-! ### How the rows change -/

section jobs
variable {R : BackfillJobModel → BackfillJobModel → Prop} {I : BackfillJobModel → Prop}

theorem SetsJob.rewrites {job job' : BackfillJobModel} (hsets : db.SetsJob job job' db')
    (hrefl : ∀ row, R row row) (hR : R job job') : Table.Rewrites R I db.job? db'.job? :=
  .set hrefl hsets.found hsets.job?_eq hR

theorem InsertsJob.rewrites {job : BackfillJobModel} (hins : db.InsertsJob job db')
    (hrefl : ∀ row, R row row) (hI : I job) : Table.Rewrites R I db.job? db'.job? :=
  .insert hrefl hins.fresh hins.job?_eq hI

theorem rewrites_of_jobs_eq (hjobs : db'.backfill_jobs = db.backfill_jobs)
    (hrefl : ∀ row, R row row) : Table.Rewrites R I db.job? db'.job? := by
  have hsame : db'.job? = db.job? := by
    unfold job?
    rw [hjobs]
  rw [hsame]
  exact .refl hrefl db.job?

end jobs

section partitions
variable {R : BackfillPartitionModel → BackfillPartitionModel → Prop}
  {I : BackfillPartitionModel → Prop}

theorem SetsPartition.rewrites {p p' : BackfillPartitionModel} (hsets : db.SetsPartition p p' db')
    (hrefl : ∀ row, R row row) (hR : R p p') : Table.Rewrites R I db.partition? db'.partition? :=
  .set hrefl hsets.found hsets.partition?_eq hR

theorem InsertsPartition.rewrites {p : BackfillPartitionModel} (hins : db.InsertsPartition p db')
    (hrefl : ∀ row, R row row) (hI : I p) : Table.Rewrites R I db.partition? db'.partition? :=
  .insert hrefl hins.fresh hins.partition?_eq hI

theorem rewrites_of_partitions_eq (hpartitions : db'.backfill_partitions = db.backfill_partitions)
    (hrefl : ∀ row, R row row) : Table.Rewrites R I db.partition? db'.partition? := by
  have hsame : db'.partition? = db.partition? := by
    unfold partition?
    rw [hpartitions]
  rw [hsame]
  exact .refl hrefl db.partition?

end partitions

/-! ### Operations on partitions -/

theorem claim_pending_partition_eq_some {max_retries : Int} {locked : List Uuid}
    {p : BackfillPartitionModel}
    (h : db.claim_pending_partition job_id max_retries tenant_id now locked = some (p, db')) :
    ∃ row, row.backfill_job_id = job_id ∧ row.tenant_id = tenant_id ∧
      row.claimable max_retries = true ∧ p = row.claimed now ∧ db.SetsPartition row p db' := by
  unfold claim_pending_partition at h
  split at h
  · next row hrow =>
    cases h
    obtain ⟨hfind, hguard⟩ := Table.selectFirst_eq_some hrow
    simp only [Bool.and_eq_true, decide_eq_true_eq] at hguard
    exact ⟨row, hguard.1.1.1, hguard.1.1.2, hguard.1.2, rfl,
      sets_partition_of_modify (f := (·.claimed now)) hfind⟩
  · cases h

theorem create_backfill_partition_eq_ok {p : BackfillPartitionModel}
    (h : db.create_backfill_partition p tenant_id = .ok db') :
    p.tenant_id = tenant_id ∧ (∃ job, db.job? p.backfill_job_id = some job) ∧
      db.InsertsPartition p db' := by
  unfold create_backfill_partition at h
  cases hkey : validate_non_empty_string p.partition_key "Partition key" with
  | error e => simp [hkey, bind, Except.bind] at h
  | ok _ =>
    simp only [hkey, bind, Except.bind] at h
    split at h
    · next htenant =>
      split at h
      · next hjob =>
        split at h
        · next hins =>
          cases h
          exact ⟨htenant, Option.isSome_iff_exists.mp hjob,
            ⟨Table.find?_of_insert? hins, Table.find?_insert? hins, rfl⟩⟩
        · cases h
      · cases h
    · cases h

/-! ### Reads -/

theorem is_backfill_job_cancelled_iff :
    db.is_backfill_job_cancelled job_id tenant_id = true ↔
      ∃ row, db.job? job_id = some row ∧ row.tenant_id = tenant_id ∧ row.state = .cancelled := by
  unfold is_backfill_job_cancelled
  cases db.job? job_id <;> simp

theorem is_backfill_job_paused_iff :
    db.is_backfill_job_paused job_id tenant_id = true ↔
      ∃ row, db.job? job_id = some row ∧ row.tenant_id = tenant_id ∧ row.state = .paused := by
  unfold is_backfill_job_paused
  cases db.job? job_id <;> simp

end Db

end Servo
