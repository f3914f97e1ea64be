import Servo.Runtime.BackfillExecutor
import Servo.Storage.RowEffects

/-! # The Calls of an Executor, Case by Case

    `Call D e db pc a db' pc'` lists every way in which one call of executor
    `e` can end: what it found in the tables, what it wrote, and where the
    executor stands afterwards. `Pc.call_of_step` shows that `Pc.step` does
    nothing else, so an invariant of the executor is proved by cases on
    `Call` and the definition of `Pc.step` is not opened again.

    The second part names the parts of a program counter that invariants talk
    about, and says for each of them how a call can change it.
-/

namespace Servo

/-- One call of executor `e`, by its outcome. -/
inductive Call (D : Deployment) (e : ExecutorId) (db : Db) : Pc → Action → Db → Pc → Prop where
  | job_claimed {row : BackfillJobModel} {now : DateTime} {locked : List Uuid} {db' : Db}
      (htenant : row.tenant_id = D.tenant_id e)
      (hclaim : row.claimable (D.config e).stale_heartbeat_threshold now = true)
      (hsets : db.SetsJob row (row.claimed now) db') :
      Call D e db .idle (.claim_pending_backfill_job now locked) db'
        (process_job (row.claimed now))
  | no_job_claimed {now : DateTime} {locked : List Uuid} :
      Call D e db .idle (.claim_pending_backfill_job now locked) db .idle
  | discovered {job : BackfillJobModel} {reads : DependencyReads} :
      Call D e db (.discovering job) (.discover_upstream_assets reads) db
        (after_discovery job (discover_upstream_assets reads job.asset_id job.max_upstream_depth))
  | discovery_failed {job row : BackfillJobModel} {err : StorageError} {now : DateTime} {db' : Db}
      (hid : row.id = job.id) (htenant : row.tenant_id = D.tenant_id e)
      (hstate : row.state = .running)
      (hsets : db.SetsJob row (row.transitioned .failed
        (some ("Upstream discovery failed: " ++ err.to_string)) now) db') :
      Call D e db (.failing_discovery job err) (.transition_backfill_job_state now) db' .idle
  | discovery_failure_refused {job : BackfillJobModel} {err : StorageError} {now : DateTime} :
      Call D e db (.failing_discovery job err) (.transition_backfill_job_state now) db .idle
  | child_created {job : BackfillJobModel} {asset : UpstreamAsset} {todo : List UpstreamAsset}
      {max_depth : Int} {n : Nat} {up down : Option PartitionConfig} {id : Uuid} {now : DateTime}
      {db' : Db}
      (hins : db.InsertsJob ((D.child_params job asset max_depth up down).row (D.tenant_id e) id
        now) db') :
      Call D e db (.creating_children job (asset :: todo) max_depth n)
        (.create_upstream_child_job up down id now) db' (next_child job todo max_depth (n + 1))
  | child_refused {job : BackfillJobModel} {asset : UpstreamAsset} {todo : List UpstreamAsset}
      {max_depth : Int} {n : Nat} {up down : Option PartitionConfig} {id : Uuid} {now : DateTime}
      {err : StorageError}
      (hrefused : db.create_upstream_child_job (D.child_params job asset max_depth up down)
        (D.tenant_id e) id now = .error err) :
      Call D e db (.creating_children job (asset :: todo) max_depth n)
        (.create_upstream_child_job up down id now) db
        (next_child job todo max_depth (created_after_error n err))
  | children_counted {job row : BackfillJobModel} {n : Nat} {db' : Db}
      (hid : row.id = job.id) (htenant : row.tenant_id = D.tenant_id e)
      (hcount : row.completed_upstream_jobs ≤ n)
      (hsets : db.SetsJob row (row.upstreamCounted n) db') :
      Call D e db (.counting_children job n) .update_backfill_upstream_count db'
        (.entering_wait job)
  | no_children_counted {job : BackfillJobModel} {n : Nat}
      (hno : ∀ row, db.job? job.id = some row → row.tenant_id ≠ D.tenant_id e) :
      Call D e db (.counting_children job n) .update_backfill_upstream_count db
        (.entering_wait job)
  | count_refused {job : BackfillJobModel} {n : Nat} :
      Call D e db (.counting_children job n) .update_backfill_upstream_count db .idle
  | wait_entered {job row : BackfillJobModel} {now : DateTime} {db' : Db}
      (hid : row.id = job.id) (htenant : row.tenant_id = D.tenant_id e)
      (hstate : row.state = .running)
      (hsets : db.SetsJob row (row.transitioned .waiting_upstream none now) db') :
      Call D e db (.entering_wait job) (.transition_backfill_job_state now) db' .idle
  | wait_refused {job : BackfillJobModel} {now : DateTime} :
      Call D e db (.entering_wait job) (.transition_backfill_job_state now) db .idle
  | cache_loaded {job : BackfillJobModel} {deps : Except StorageError (List Uuid)}
      {get_asset : Uuid → Except StorageError UpstreamAssetInfo} :
      Call D e db (.loading_cache job) (.load_upstream_dependency_cache deps get_asset) db
        (.checking_cancelled (.start job (load_upstream_dependency_cache deps get_asset)))
  | seen_cancelled {l : PartitionLoop}
      (hread : db.is_backfill_job_cancelled l.job.id (D.tenant_id e) = true) :
      Call D e db (.checking_cancelled l) .is_backfill_job_cancelled db .idle
  | not_cancelled {l : PartitionLoop}
      (hread : db.is_backfill_job_cancelled l.job.id (D.tenant_id e) = false) :
      Call D e db (.checking_cancelled l) .is_backfill_job_cancelled db (.checking_paused l)
  | seen_paused {l : PartitionLoop}
      (hread : db.is_backfill_job_paused l.job.id (D.tenant_id e) = true) :
      Call D e db (.checking_paused l) .is_backfill_job_paused db .idle
  | not_paused {l : PartitionLoop}
      (hread : db.is_backfill_job_paused l.job.id (D.tenant_id e) = false) :
      Call D e db (.checking_paused l) .is_backfill_job_paused db (.beating l)
  | beat {l : PartitionLoop} {row : BackfillJobModel} {now : DateTime} {db' : Db}
      (hid : row.id = l.job.id) (htenant : row.tenant_id = D.tenant_id e)
      (hstate : row.state = .running)
      (hsets : db.SetsJob row (row.heartbeat now) db') :
      Call D e db (.beating l) (.update_backfill_job_heartbeat now) db' (.claiming_partition l)
  | beat_dropped {l : PartitionLoop} {now : DateTime}
      (hno : ∀ row, db.job? l.job.id = some row → row.tenant_id = D.tenant_id e →
        row.state ≠ .running) :
      Call D e db (.beating l) (.update_backfill_job_heartbeat now) db (.claiming_partition l)
  | partition_claimed {l : PartitionLoop} {row : BackfillPartitionModel} {now : DateTime}
      {locked : List Uuid} {db' : Db}
      (hjob : row.backfill_job_id = l.job.id) (htenant : row.tenant_id = D.tenant_id e)
      (hclaim : row.claimable (D.config e).max_partition_retries = true)
      (hsets : db.SetsPartition row (row.claimed now) db') :
      Call D e db (.claiming_partition l) (.claim_pending_partition now locked) db'
        (.reading_asset l (row.claimed now))
  | no_partition_claimed {l : PartitionLoop} {now : DateTime} {locked : List Uuid}
      (hnone : db.claim_pending_partition l.job.id (D.config e).max_partition_retries
        (D.tenant_id e) now locked = none) :
      Call D e db (.claiming_partition l) (.claim_pending_partition now locked) db (.finishing l)
  | asset_read {l : PartitionLoop} {p : BackfillPartitionModel} {config : Option PartitionConfig} :
      Call D e db (.reading_asset l p) (.get_asset config) db (after_asset_read D l p config)
  | upstream_ready {l : PartitionLoop} {p : BackfillPartitionModel} {asset_id : Uuid}
      {key : String} {todo : List (Uuid × String)} :
      Call D e db (.checking_upstream l p ((asset_id, key) :: todo)) .is_partition_completed db
        (if todo = [] then .executing l p else .checking_upstream l p todo)
  | upstream_not_ready {l : PartitionLoop} {p : BackfillPartitionModel} {asset_id : Uuid}
      {key : String} {todo : List (Uuid × String)} :
      Call D e db (.checking_upstream l p ((asset_id, key) :: todo)) .is_partition_completed db
        (.requeueing l p)
  | requeued {l : PartitionLoop} {p row : BackfillPartitionModel} {db' : Db}
      (hid : row.id = p.id) (hstate : row.state = .running)
      (hsets : db.SetsPartition row row.requeued db') :
      Call D e db (.requeueing l p) .requeue_backfill_partition db' (.reporting (l.partition_ok p))
  | requeue_refused {l : PartitionLoop} {p : BackfillPartitionModel}
      (hno : ∀ row, db.partition? p.id = some row → row.tenant_id = D.tenant_id e →
        row.state ≠ .running) :
      Call D e db (.requeueing l p) .requeue_backfill_partition db
        (.reporting (l.partition_err p (D.config e).max_partition_retries))
  | executed {l : PartitionLoop} {p : BackfillPartitionModel} {execution_id : Uuid} :
      Call D e db (.executing l p) (.execute_asset_partition (.ok execution_id)) db
        (.completing l p execution_id)
  | execution_failed {l : PartitionLoop} {p : BackfillPartitionModel} {err : String} :
      Call D e db (.executing l p) (.execute_asset_partition (.error err)) db (.failing l p err)
  | completed {l : PartitionLoop} {p row : BackfillPartitionModel} {execution_id : Uuid}
      {duration_ms : Int} {now : DateTime} {db' : Db}
      (hid : row.id = p.id) (hstate : row.state = .running)
      (hsets : db.SetsPartition row (row.completedBy (some execution_id) duration_ms now) db') :
      Call D e db (.completing l p execution_id) (.complete_backfill_partition duration_ms now) db'
        (.reporting (l.partition_ok p))
  | completion_refused {l : PartitionLoop} {p : BackfillPartitionModel} {execution_id : Uuid}
      {duration_ms : Int} {now : DateTime}
      (hno : ∀ row, db.partition? p.id = some row → row.tenant_id = D.tenant_id e →
        row.state ≠ .running) :
      Call D e db (.completing l p execution_id) (.complete_backfill_partition duration_ms now) db
        (.reporting (l.partition_err p (D.config e).max_partition_retries))
  | failed {l : PartitionLoop} {p row : BackfillPartitionModel} {err : String}
      {duration_ms : Int} {now : DateTime} {db' : Db}
      (hid : row.id = p.id) (hstate : row.state = .running)
      (hsets : db.SetsPartition row (row.failedWith err duration_ms now) db') :
      Call D e db (.failing l p err) (.fail_backfill_partition duration_ms now) db'
        (.reporting (l.partition_err p (D.config e).max_partition_retries))
  | failure_refused {l : PartitionLoop} {p : BackfillPartitionModel} {err : String}
      {duration_ms : Int} {now : DateTime}
      (hno : ∀ row, db.partition? p.id = some row → row.tenant_id = D.tenant_id e →
        row.state ≠ .running) :
      Call D e db (.failing l p err) (.fail_backfill_partition duration_ms now) db
        (.reporting (l.partition_err p (D.config e).max_partition_retries))
  | reported {l : PartitionLoop} {row : BackfillJobModel} {now : DateTime} {db' : Db}
      (hid : row.id = l.job.id) (htenant : row.tenant_id = D.tenant_id e)
      (hstate : row.state = .running)
      (hsets : db.SetsJob row (row.progressed l.progress now) db') :
      Call D e db (.reporting l) (.update_backfill_job_progress_with_eta now) db'
        (.checking_cancelled l)
  | report_dropped {l : PartitionLoop} {now : DateTime}
      (hno : ∀ row, db.job? l.job.id = some row → row.tenant_id = D.tenant_id e →
        row.state ≠ .running) :
      Call D e db (.reporting l) (.update_backfill_job_progress_with_eta now) db
        (.checking_cancelled l)
  | finished {l : PartitionLoop} {row : BackfillJobModel} {now : DateTime} {db' : Db}
      (hid : row.id = l.job.id) (htenant : row.tenant_id = D.tenant_id e)
      (hstate : row.state = .running)
      (hsets : db.SetsJob row (row.transitioned l.final_state
        (l.error_message (D.config e).max_partition_retries) now) db') :
      Call D e db (.finishing l) (.transition_backfill_job_state now) db' (after_finish l)
  | finish_refused {l : PartitionLoop} {now : DateTime}
      (hno : ∀ row, db.job? l.job.id = some row → row.tenant_id = D.tenant_id e →
        row.state ≠ .running) :
      Call D e db (.finishing l) (.transition_backfill_job_state now) db .idle
  | incremented {child row : BackfillJobModel} {parent_id : Uuid} {db' : Db}
      (hid : row.id = parent_id) (htenant : row.tenant_id = D.tenant_id e)
      (hguard : row.may_increment = true)
      (hsets : db.SetsJob row row.upstreamIncremented db') :
      Call D e db (.incrementing child parent_id) .increment_completed_upstream db'
        (.releasing child parent_id)
  | increment_refused {child : BackfillJobModel} {parent_id : Uuid}
      (hno : ∀ row, db.job? parent_id = some row → row.tenant_id = D.tenant_id e →
        row.may_increment = false) :
      Call D e db (.incrementing child parent_id) .increment_completed_upstream db .idle
  | released {child row : BackfillJobModel} {parent_id : Uuid} {db' : Db}
      (hid : row.id = parent_id) (htenant : row.tenant_id = D.tenant_id e)
      (hguard : row.releasable = true)
      (hsuccess : (db.try_transition_parent_to_pending parent_id (D.tenant_id e)).1 = true)
      (hsets : db.SetsJob row row.releasedToPending db') :
      Call D e db (.releasing child parent_id) .try_transition_parent_to_pending db' .idle
  | not_released {child : BackfillJobModel} {parent_id : Uuid}
      (hfailure : (db.try_transition_parent_to_pending parent_id (D.tenant_id e)).1 = false)
      (hno : ∀ row, db.job? parent_id = some row → row.tenant_id = D.tenant_id e →
        row.releasable = false) :
      Call D e db (.releasing child parent_id) .try_transition_parent_to_pending db .idle
  | parent_failed {child row : BackfillJobModel} {parent_id : Uuid} {msg : String}
      {now : DateTime} {db' : Db}
      (hid : row.id = parent_id) (htenant : row.tenant_id = D.tenant_id e)
      (hstate : row.state = .waiting_upstream)
      (hsets : db.SetsJob row (row.failedByChild msg now) db') :
      Call D e db (.failing_parent child parent_id) (.fail_parent_on_child_failure now) db' .idle
  | parent_not_failed {child : BackfillJobModel} {parent_id : Uuid} {now : DateTime} :
      Call D e db (.failing_parent child parent_id) (.fail_parent_on_child_failure now) db .idle
  | call_fails {pc : Pc} {err : StorageError} :
      Call D e db pc (.call_fails err) db (pc.on_error (D.config e) err)
  | crash {pc : Pc} : Call D e db pc .crash db .idle

/-- A call with a result in `Except` either took effect or left the tables alone. -/
theorem finish_call_cases {config : BackfillExecutorConfig} {db db' : Db} {pc next pc' : Pc}
    {r : Except StorageError Db} (h : finish_call config db pc next r = some (db', pc')) :
    (r = .ok db' ∧ pc' = next) ∨
      ∃ err, r = .error err ∧ db' = db ∧ pc' = pc.on_error config err := by
  cases r with
  | ok db₁ =>
    simp only [finish_call, Option.some.injEq, Prod.mk.injEq] at h
    obtain ⟨rfl, rfl⟩ := h
    exact Or.inl ⟨rfl, rfl⟩
  | error err =>
    simp only [finish_call, Option.some.injEq, Prod.mk.injEq] at h
    obtain ⟨rfl, rfl⟩ := h
    exact Or.inr ⟨err, rfl, rfl, rfl⟩

/-- A job ends as failed or as completed. -/
theorem PartitionLoop.final_state_cases (l : PartitionLoop) :
    l.final_state = .failed ∨ l.final_state = .completed := by
  unfold final_state
  split
  · exact Or.inl rfl
  · split <;> exact Or.inr rfl

theorem PartitionLoop.final_state_ne {l : PartitionLoop} {state : BackfillState}
    (hfailed : state ≠ .failed) (hcompleted : state ≠ .completed) : l.final_state ≠ state := by
  rcases l.final_state_cases with h | h
  · exact fun hstate => hfailed (hstate.symm.trans h)
  · exact fun hstate => hcompleted (hstate.symm.trans h)

/-- The final state is one that a running job may move to. -/
theorem PartitionLoop.validate_final_state (l : PartitionLoop) :
    validate_backfill_state_transition .running l.final_state = true := by
  rcases l.final_state_cases with h | h <;> rw [h] <;> rfl

/-- `Pc.step` does what `Call` lists and nothing else. -/
theorem Pc.call_of_step {D : Deployment} {e : ExecutorId} {db db' : Db} {pc pc' : Pc} {a : Action}
    (h : pc.step D e db a = some (db', pc')) : Call D e db pc a db' pc' := by
  unfold Pc.step at h
  split at h
  · -- claim_pending_backfill_job
    split at h
    · next hclaim =>
      cases h
      obtain ⟨row, htenant, hclaimable, rfl, hsets⟩ :=
        Db.claim_pending_backfill_job_eq_some hclaim
      exact .job_claimed htenant hclaimable hsets
    · cases h; exact .no_job_claimed
  · cases h; exact .discovered
  · -- create_upstream_child_job
    obtain ⟨hok, rfl⟩ | ⟨err, herr, rfl, rfl⟩ := finish_call_cases h
    · exact .child_created (Db.create_upstream_child_job_eq_ok hok)
    · exact .child_refused herr
  · -- update_backfill_upstream_count
    obtain ⟨hok, rfl⟩ | ⟨err, herr, rfl, rfl⟩ := finish_call_cases h
    · obtain ⟨row, hid, htenant, hcount, hsets⟩ | ⟨rfl, hno⟩ :=
        Db.update_backfill_upstream_count_eq_ok hok
      · exact .children_counted hid htenant hcount hsets
      · exact .no_children_counted hno
    · exact .count_refused
  · -- transition to failed after a discovery error
    obtain ⟨hok, rfl⟩ | ⟨err, herr, rfl, rfl⟩ := finish_call_cases h
    · obtain ⟨row, hid, htenant, hstate, hsets⟩ := Db.transition_backfill_job_state_eq_ok hok
      exact .discovery_failed hid htenant hstate hsets
    · exact .discovery_failure_refused
  · -- transition to waiting_upstream
    obtain ⟨hok, rfl⟩ | ⟨err, herr, rfl, rfl⟩ := finish_call_cases h
    · obtain ⟨row, hid, htenant, hstate, hsets⟩ := Db.transition_backfill_job_state_eq_ok hok
      exact .wait_entered hid htenant hstate hsets
    · exact .wait_refused
  · -- transition to the final state
    next l =>
    obtain ⟨hok, rfl⟩ | ⟨err, herr, rfl, rfl⟩ := finish_call_cases h
    · obtain ⟨row, hid, htenant, hstate, hsets⟩ := Db.transition_backfill_job_state_eq_ok hok
      exact .finished hid htenant hstate hsets
    · exact .finish_refused fun row hrow htenant =>
        Db.transition_backfill_job_state_eq_error l.validate_final_state herr hrow htenant
  · cases h; exact .cache_loaded
  · -- is_backfill_job_cancelled
    cases h
    split
    · next hread => exact .seen_cancelled hread
    · next hread => exact .not_cancelled (Bool.eq_false_iff.mpr hread)
  · -- is_backfill_job_paused
    cases h
    split
    · next hread => exact .seen_paused hread
    · next hread => exact .not_paused (Bool.eq_false_iff.mpr hread)
  · -- update_backfill_job_heartbeat
    cases h
    obtain ⟨row, hid, htenant, hstate, hsets⟩ | ⟨heq, hno⟩ := Db.update_backfill_job_heartbeat_cases
    · exact .beat hid htenant hstate hsets
    · rw [heq]; exact .beat_dropped hno
  · -- claim_pending_partition
    split at h
    · next hclaim =>
      cases h
      obtain ⟨row, hjob, htenant, hclaimable, rfl, hsets⟩ :=
        Db.claim_pending_partition_eq_some hclaim
      exact .partition_claimed hjob htenant hclaimable hsets
    · next hnone => cases h; exact .no_partition_claimed hnone
  · cases h; exact .asset_read
  · -- is_partition_completed
    cases h
    split
    · exact .upstream_ready
    · exact .upstream_not_ready
  · -- requeue_backfill_partition
    obtain ⟨hok, rfl⟩ | ⟨err, herr, rfl, rfl⟩ := finish_call_cases h
    · obtain ⟨row, hid, -, hstate, hsets⟩ := Db.update_running_partition_eq_ok hok
      exact .requeued hid hstate hsets
    · exact .requeue_refused fun row hrow htenant =>
        Db.update_running_partition_eq_error herr hrow htenant
  · -- execute_asset_partition
    next outcome l p =>
    cases h
    cases outcome with
    | ok execution_id => exact .executed
    | error err => exact .execution_failed
  · -- complete_backfill_partition
    obtain ⟨hok, rfl⟩ | ⟨err, herr, rfl, rfl⟩ := finish_call_cases h
    · obtain ⟨row, hid, -, hstate, hsets⟩ := Db.update_running_partition_eq_ok hok
      exact .completed hid hstate hsets
    · exact .completion_refused fun row hrow htenant =>
        Db.update_running_partition_eq_error herr hrow htenant
  · -- fail_backfill_partition
    obtain ⟨hok, rfl⟩ | ⟨err, herr, rfl, rfl⟩ := finish_call_cases h
    · obtain ⟨row, hid, -, hstate, hsets⟩ := Db.update_running_partition_eq_ok hok
      exact .failed hid hstate hsets
    · exact .failure_refused fun row hrow htenant =>
        Db.update_running_partition_eq_error herr hrow htenant
  · -- update_backfill_job_progress_with_eta
    cases h
    obtain ⟨row, hid, htenant, hstate, hsets⟩ | ⟨heq, hno⟩ := Db.update_backfill_job_progress_cases
    · exact .reported hid htenant hstate hsets
    · rw [heq]; exact .report_dropped hno
  · -- increment_completed_upstream
    obtain ⟨hok, rfl⟩ | ⟨err, herr, rfl, rfl⟩ := finish_call_cases h
    · obtain ⟨row, hid, htenant, hguard, hsets⟩ := Db.increment_completed_upstream_eq_ok hok
      exact .incremented hid htenant hguard hsets
    · exact .increment_refused fun row hrow htenant =>
        Db.increment_completed_upstream_eq_error herr hrow htenant
  · -- try_transition_parent_to_pending
    cases h
    obtain ⟨row, hid, htenant, hguard, hsuccess, hsets⟩ | ⟨heq, hno⟩ :=
      Db.try_transition_parent_to_pending_cases
    · exact .released hid htenant hguard hsuccess hsets
    · rw [heq]; exact .not_released (by rw [heq]) hno
  · -- fail_parent_on_child_failure
    cases h
    obtain ⟨row, msg, hid, htenant, hstate, hsets⟩ | heq := Db.fail_parent_on_child_failure_cases
    · exact .parent_failed hid htenant hstate hsets
    · rw [heq]; exact .parent_not_failed
  · cases h; exact .call_fails
  · cases h; exact .crash
  · cases h

/-! ### What a program counter holds -/

namespace Pc

/-- The partition loop the executor is in. -/
def loop? : Pc → Option PartitionLoop
  | .checking_cancelled l | .checking_paused l | .beating l | .claiming_partition l
  | .reading_asset l _ | .checking_upstream l _ _ | .requeueing l _ | .executing l _
  | .completing l _ _ | .failing l _ _ | .reporting l | .finishing l => some l
  | _ => none

/-- The partition the executor has claimed and not yet completed, failed or requeued. -/
def partition? : Pc → Option BackfillPartitionModel
  | .reading_asset _ p | .checking_upstream _ p _ | .requeueing _ p | .executing _ p
  | .completing _ p _ | .failing _ p _ => some p
  | _ => none

/-- The job whose children the executor is creating. -/
def propagating? : Pc → Option BackfillJobModel
  | .discovering job | .failing_discovery job _ | .creating_children job _ _ _
  | .counting_children job _ | .entering_wait job => some job
  | _ => none

/-- The job the executor is processing, as it was claimed. -/
def processing? : Pc → Option BackfillJobModel
  | .discovering job | .failing_discovery job _ | .creating_children job _ _ _
  | .counting_children job _ | .entering_wait job | .loading_cache job => some job
  | .checking_cancelled l | .checking_paused l | .beating l | .claiming_partition l
  | .reading_asset l _ | .checking_upstream l _ _ | .requeueing l _ | .executing l _
  | .completing l _ _ | .failing l _ _ | .reporting l | .finishing l => some l.job
  | _ => none

/-- The job whose partitions the executor processes, or is about to. -/
def working? : Pc → Option BackfillJobModel
  | .loading_cache job => some job
  | pc => pc.loop?.map (·.job)

/-- The finished child job whose parent the executor notifies. -/
def notifying? : Pc → Option (BackfillJobModel × Uuid)
  | .incrementing child parent_id | .releasing child parent_id
  | .failing_parent child parent_id => some (child, parent_id)
  | _ => none

theorem processing?_of_loop? {pc : Pc} {l : PartitionLoop} (h : pc.loop? = some l) :
    pc.processing? = some l.job := by
  cases pc <;> simp_all [loop?, processing?]

theorem processing?_of_propagating? {pc : Pc} {job : BackfillJobModel}
    (h : pc.propagating? = some job) : pc.processing? = some job := by
  cases pc <;> simp_all [propagating?, processing?]

theorem loop?_of_partition? {pc : Pc} {p : BackfillPartitionModel} (h : pc.partition? = some p) :
    ∃ l, pc.loop? = some l := by
  cases pc <;> simp_all [loop?, partition?]

/-! The pieces of `process_job` between two calls. -/

theorem process_job_cases (job : BackfillJobModel) :
    (process_job job = .discovering job ∧ job.include_upstream = true ∧
      job.parent_job_id = none ∧ job.upstream_job_count = 0) ∨
    (process_job job = .loading_cache job ∧
      ¬ (job.include_upstream = true ∧ job.parent_job_id = none ∧ job.upstream_job_count = 0)) := by
  unfold process_job
  split
  · next h => exact Or.inl ⟨rfl, h⟩
  · next h => exact Or.inr ⟨rfl, h⟩

theorem next_child_cases (job : BackfillJobModel) (todo : List UpstreamAsset) (max_depth : Int)
    (n : Nat) :
    (next_child job todo max_depth n = .counting_children job n ∧ todo = []) ∨
      next_child job todo max_depth n = .creating_children job todo max_depth n := by
  unfold next_child
  split
  · next h => exact Or.inl ⟨rfl, h⟩
  · exact Or.inr rfl

theorem after_discovery_cases (job : BackfillJobModel)
    (r : Except StorageError (List UpstreamAsset)) :
    (∃ err, r = .error err ∧ after_discovery job r = .failing_discovery job err) ∨
    (r = .ok [] ∧ after_discovery job r = .idle) ∨
    ∃ assets, r = .ok assets ∧ assets ≠ [] ∧
      after_discovery job r = .creating_children job assets (max_upstream_depth assets) 0 := by
  cases r with
  | error err => exact Or.inl ⟨err, rfl, rfl⟩
  | ok assets =>
    right
    cases assets with
    | nil => exact Or.inl ⟨rfl, rfl⟩
    | cons asset assets => exact Or.inr ⟨_, rfl, List.cons_ne_nil _ _, rfl⟩

theorem after_asset_read_cases (D : Deployment) (l : PartitionLoop) (p : BackfillPartitionModel)
    (config : Option PartitionConfig) :
    after_asset_read D l p config = .executing l p ∨
      ∃ todo, after_asset_read D l p config = .checking_upstream l p todo := by
  unfold after_asset_read
  split
  · exact Or.inl rfl
  · split
    · exact Or.inl rfl
    · exact Or.inr ⟨_, rfl⟩

theorem after_finish_cases (l : PartitionLoop) :
    after_finish l = .idle ∨
      ∃ parent_id, l.job.parent_job_id = some parent_id ∧
        (l.final_state = .completed ∧ after_finish l = .incrementing l.job parent_id ∨
          l.final_state = .failed ∧ after_finish l = .failing_parent l.job parent_id) := by
  unfold after_finish
  split
  · exact Or.inl rfl
  · next parent_id hparent =>
    split
    · next hstate => exact Or.inr ⟨parent_id, hparent, Or.inl ⟨hstate, rfl⟩⟩
    · next hstate => exact Or.inr ⟨parent_id, hparent, Or.inr ⟨hstate, rfl⟩⟩
    · exact Or.inl rfl

@[simp] theorem processing?_process_job (job : BackfillJobModel) :
    (process_job job).processing? = some job := by
  obtain ⟨h, -⟩ | ⟨h, -⟩ := process_job_cases job <;> rw [h] <;> rfl

@[simp] theorem loop?_process_job (job : BackfillJobModel) : (process_job job).loop? = none := by
  obtain ⟨h, -⟩ | ⟨h, -⟩ := process_job_cases job <;> rw [h] <;> rfl

@[simp] theorem partition?_process_job (job : BackfillJobModel) :
    (process_job job).partition? = none := by
  obtain ⟨h, -⟩ | ⟨h, -⟩ := process_job_cases job <;> rw [h] <;> rfl

@[simp] theorem notifying?_process_job (job : BackfillJobModel) :
    (process_job job).notifying? = none := by
  obtain ⟨h, -⟩ | ⟨h, -⟩ := process_job_cases job <;> rw [h] <;> rfl

section next_child
variable (job : BackfillJobModel) (todo : List UpstreamAsset) (max_depth : Int) (n : Nat)

@[simp] theorem processing?_next_child :
    (next_child job todo max_depth n).processing? = some job := by
  obtain ⟨h, -⟩ | h := next_child_cases job todo max_depth n <;> rw [h] <;> rfl

@[simp] theorem propagating?_next_child :
    (next_child job todo max_depth n).propagating? = some job := by
  obtain ⟨h, -⟩ | h := next_child_cases job todo max_depth n <;> rw [h] <;> rfl

@[simp] theorem loop?_next_child : (next_child job todo max_depth n).loop? = none := by
  obtain ⟨h, -⟩ | h := next_child_cases job todo max_depth n <;> rw [h] <;> rfl

@[simp] theorem partition?_next_child : (next_child job todo max_depth n).partition? = none := by
  obtain ⟨h, -⟩ | h := next_child_cases job todo max_depth n <;> rw [h] <;> rfl

@[simp] theorem notifying?_next_child : (next_child job todo max_depth n).notifying? = none := by
  obtain ⟨h, -⟩ | h := next_child_cases job todo max_depth n <;> rw [h] <;> rfl

end next_child

section after_discovery
variable (job : BackfillJobModel) (r : Except StorageError (List UpstreamAsset))

theorem processing?_after_discovery {job' : BackfillJobModel}
    (h : (after_discovery job r).processing? = some job') : job' = job := by
  obtain ⟨_, -, heq⟩ | ⟨-, heq⟩ | ⟨_, -, -, heq⟩ := after_discovery_cases job r <;>
    rw [heq] at h <;> simp_all [processing?]

@[simp] theorem loop?_after_discovery : (after_discovery job r).loop? = none := by
  obtain ⟨_, -, heq⟩ | ⟨-, heq⟩ | ⟨_, -, -, heq⟩ := after_discovery_cases job r <;> rw [heq] <;> rfl

@[simp] theorem partition?_after_discovery : (after_discovery job r).partition? = none := by
  obtain ⟨_, -, heq⟩ | ⟨-, heq⟩ | ⟨_, -, -, heq⟩ := after_discovery_cases job r <;> rw [heq] <;> rfl

@[simp] theorem notifying?_after_discovery : (after_discovery job r).notifying? = none := by
  obtain ⟨_, -, heq⟩ | ⟨-, heq⟩ | ⟨_, -, -, heq⟩ := after_discovery_cases job r <;> rw [heq] <;> rfl

end after_discovery

section after_asset_read
variable (D : Deployment) (l : PartitionLoop) (p : BackfillPartitionModel)
  (config : Option PartitionConfig)

@[simp] theorem processing?_after_asset_read :
    (after_asset_read D l p config).processing? = some l.job := by
  obtain h | ⟨_, h⟩ := after_asset_read_cases D l p config <;> rw [h] <;> rfl

@[simp] theorem loop?_after_asset_read : (after_asset_read D l p config).loop? = some l := by
  obtain h | ⟨_, h⟩ := after_asset_read_cases D l p config <;> rw [h] <;> rfl

@[simp] theorem propagating?_after_asset_read :
    (after_asset_read D l p config).propagating? = none := by
  obtain h | ⟨_, h⟩ := after_asset_read_cases D l p config <;> rw [h] <;> rfl

@[simp] theorem partition?_after_asset_read :
    (after_asset_read D l p config).partition? = some p := by
  obtain h | ⟨_, h⟩ := after_asset_read_cases D l p config <;> rw [h] <;> rfl

@[simp] theorem notifying?_after_asset_read :
    (after_asset_read D l p config).notifying? = none := by
  obtain h | ⟨_, h⟩ := after_asset_read_cases D l p config <;> rw [h] <;> rfl

end after_asset_read

@[simp] theorem processing?_after_finish (l : PartitionLoop) :
    (after_finish l).processing? = none := by
  obtain h | ⟨_, -, ⟨-, h⟩ | ⟨-, h⟩⟩ := after_finish_cases l <;> rw [h] <;> rfl

@[simp] theorem propagating?_after_finish (l : PartitionLoop) :
    (after_finish l).propagating? = none := by
  obtain h | ⟨_, -, ⟨-, h⟩ | ⟨-, h⟩⟩ := after_finish_cases l <;> rw [h] <;> rfl

@[simp] theorem loop?_after_finish (l : PartitionLoop) : (after_finish l).loop? = none := by
  obtain h | ⟨_, -, ⟨-, h⟩ | ⟨-, h⟩⟩ := after_finish_cases l <;> rw [h] <;> rfl

@[simp] theorem partition?_after_finish (l : PartitionLoop) :
    (after_finish l).partition? = none := by
  obtain h | ⟨_, -, ⟨-, h⟩ | ⟨-, h⟩⟩ := after_finish_cases l <;> rw [h] <;> rfl

/-! A failing call. -/

section on_error
variable (config : BackfillExecutorConfig) (err : StorageError) (pc : Pc)

theorem on_error_creating_children (job : BackfillJobModel) (asset : UpstreamAsset)
    (todo : List UpstreamAsset) (max_depth : Int) (n : Nat) :
    (creating_children job (asset :: todo) max_depth n).on_error config err =
      next_child job todo max_depth (created_after_error n err) := rfl

@[simp] theorem notifying?_on_error : (pc.on_error config err).notifying? = none := by
  cases pc with
  | creating_children job todo max_depth n =>
    cases todo with
    | nil => rfl
    | cons asset todo => rw [on_error_creating_children, notifying?_next_child]
  | _ => rfl

end on_error

end Pc

@[simp] theorem PartitionLoop.job_partition_ok (l : PartitionLoop) (p : BackfillPartitionModel) :
    (l.partition_ok p).job = l.job := rfl

@[simp] theorem PartitionLoop.job_partition_err (l : PartitionLoop) (p : BackfillPartitionModel)
    (max_partition_retries : Int) : (l.partition_err p max_partition_retries).job = l.job := by
  unfold partition_err
  split <;> rfl

/-! ### How a call changes what a program counter holds -/

section changes
variable {D : Deployment} {e : ExecutorId} {db db' : Db} {pc pc' : Pc} {a : Action}

theorem Pc.processing?_on_error {config : BackfillExecutorConfig} {err : StorageError} {pc : Pc}
    {job : BackfillJobModel} (h : (pc.on_error config err).processing? = some job) :
    pc.processing? = some job := by
  cases pc with
  | creating_children job' todo max_depth n =>
    cases todo with
    | nil => cases h
    | cons asset todo => rwa [on_error_creating_children, processing?_next_child] at h
  | loading_cache job' => exact h
  | reading_asset l p | checking_upstream l p _ | requeueing l p | completing l p _
  | failing l p _ =>
    simp only [Pc.on_error, processing?, PartitionLoop.job_partition_err] at h ⊢
    exact h
  | _ => first | exact h | cases h

/-- An executor gets into `process_job` by claiming the job, and by nothing else. -/
theorem Call.processing? (h : Call D e db pc a db' pc') {job : BackfillJobModel}
    (hjob : pc'.processing? = some job) :
    pc.processing? = some job ∨
      ∃ row now locked, pc = .idle ∧ a = .claim_pending_backfill_job now locked ∧
        row.tenant_id = D.tenant_id e ∧
        row.claimable (D.config e).stale_heartbeat_threshold now = true ∧
        job = row.claimed now ∧ db.SetsJob row job db' := by
  cases h with
  | job_claimed htenant hclaim hsets =>
    rw [Pc.processing?_process_job] at hjob
    cases hjob
    exact Or.inr ⟨_, _, _, rfl, rfl, htenant, hclaim, rfl, hsets⟩
  | discovered =>
    rw [Pc.processing?_after_discovery _ _ hjob]
    exact Or.inl rfl
  | call_fails => exact Or.inl (Pc.processing?_on_error hjob)
  | child_created | child_refused =>
    rw [Pc.processing?_next_child] at hjob
    exact Or.inl hjob
  | asset_read =>
    rw [Pc.processing?_after_asset_read] at hjob
    exact Or.inl hjob
  | requeue_refused | completion_refused | failed | failure_refused =>
    simp only [Pc.processing?, PartitionLoop.job_partition_err] at hjob
    exact Or.inl hjob
  | upstream_ready =>
    left
    split at hjob <;> exact hjob
  | finished => simp at hjob
  | _ => first | exact Or.inl hjob | cases hjob

/-- An executor starts to create children by claiming a root job that asks for it and
    whose children have not been counted. -/
theorem Call.propagating? (h : Call D e db pc a db' pc') {job : BackfillJobModel}
    (hjob : pc'.propagating? = some job) :
    pc.propagating? = some job ∨
      (pc = .idle ∧ pc' = .discovering job ∧ job.include_upstream = true ∧
        job.parent_job_id = none ∧ job.upstream_job_count = 0) := by
  cases h with
  | @job_claimed row now locked db' _ _ _ =>
    obtain ⟨heq, hroot⟩ | ⟨heq, -⟩ := Pc.process_job_cases (row.claimed now)
    · rw [heq] at hjob ⊢
      cases hjob
      exact Or.inr ⟨rfl, rfl, hroot⟩
    · rw [heq] at hjob
      cases hjob
  | @discovered job' reads =>
    obtain ⟨_, -, heq⟩ | ⟨-, heq⟩ | ⟨_, -, -, heq⟩ := Pc.after_discovery_cases job'
      (discover_upstream_assets reads job'.asset_id job'.max_upstream_depth)
    all_goals
      rw [heq] at hjob
      first | exact Or.inl hjob | cases hjob
  | child_created | child_refused =>
    rw [Pc.propagating?_next_child] at hjob
    exact Or.inl hjob
  | call_fails =>
    left
    cases pc with
    | creating_children job' todo max_depth n =>
      cases todo with
      | nil => cases hjob
      | cons asset todo => rwa [Pc.on_error_creating_children, Pc.propagating?_next_child] at hjob
    | _ => first | exact hjob | cases hjob
  | asset_read | finished => simp at hjob
  | upstream_ready => split at hjob <;> cases hjob
  | _ => first | exact Or.inl hjob | cases hjob

theorem Pc.processing?_of_working? {pc : Pc} {job : BackfillJobModel}
    (h : pc.working? = some job) : pc.processing? = some job := by
  cases pc <;> simp_all [Pc.working?, Pc.loop?, Pc.processing?]

/-- An executor comes to work on a job by claiming one that needs no children. -/
theorem Call.working? (h : Call D e db pc a db' pc') {job : BackfillJobModel}
    (hjob : pc'.working? = some job) :
    pc.working? = some job ∨
      (pc = .idle ∧ pc'.processing? = some job ∧
        ¬ (job.include_upstream = true ∧ job.parent_job_id = none ∧
          job.upstream_job_count = 0)) := by
  cases h with
  | @job_claimed row now locked _ _ _ _ =>
    obtain ⟨heq, -⟩ | ⟨heq, hnot⟩ := Pc.process_job_cases (row.claimed now)
    · rw [heq] at hjob
      cases hjob
    · rw [heq] at hjob ⊢
      cases hjob
      exact Or.inr ⟨rfl, rfl, hnot⟩
  | cache_loaded => exact Or.inl hjob
  | @discovered job' reads =>
    obtain ⟨_, -, heq⟩ | ⟨-, heq⟩ | ⟨_, -, -, heq⟩ := Pc.after_discovery_cases job'
      (discover_upstream_assets reads job'.asset_id job'.max_upstream_depth) <;>
      rw [heq] at hjob <;> cases hjob
  | @child_created job' asset todo max_depth n | @child_refused job' asset todo max_depth n =>
    obtain ⟨heq, -⟩ | heq := Pc.next_child_cases job' todo max_depth _ <;>
      rw [heq] at hjob <;> cases hjob
  | @asset_read l p config =>
    obtain heq | ⟨_, heq⟩ := Pc.after_asset_read_cases D l p config <;>
      rw [heq] at hjob <;> exact Or.inl hjob
  | upstream_ready => split at hjob <;> exact Or.inl hjob
  | requeue_refused | completion_refused | failed | failure_refused =>
    simp only [Pc.working?, Pc.loop?, Option.map_some, PartitionLoop.job_partition_err] at hjob
    exact Or.inl hjob
  | @finished l =>
    obtain heq | ⟨_, -, ⟨-, heq⟩ | ⟨-, heq⟩⟩ := Pc.after_finish_cases l <;>
      rw [heq] at hjob <;> cases hjob
  | call_fails =>
    left
    cases pc with
    | creating_children job' todo max_depth n =>
      cases todo with
      | nil => cases hjob
      | cons asset todo =>
        rw [Pc.on_error_creating_children] at hjob
        obtain ⟨heq, -⟩ | heq := Pc.next_child_cases job' todo max_depth
          (created_after_error n _) <;> rw [heq] at hjob <;> cases hjob
    | reading_asset | checking_upstream | requeueing | completing | failing =>
      simp only [Pc.on_error, Pc.working?, Pc.loop?, Option.map_some,
        PartitionLoop.job_partition_err] at hjob ⊢
      exact hjob
    | _ => first | exact hjob | cases hjob
  | _ => first | exact Or.inl hjob | cases hjob

/-- An executor comes to hold a partition by claiming it, and by nothing else. -/
theorem Call.partition? (h : Call D e db pc a db' pc') {p : BackfillPartitionModel}
    (hp : pc'.partition? = some p) :
    pc.partition? = some p ∨
      ∃ l row now locked, pc = .claiming_partition l ∧ a = .claim_pending_partition now locked ∧
        pc' = .reading_asset l p ∧ row.backfill_job_id = l.job.id ∧
        row.tenant_id = D.tenant_id e ∧
        row.claimable (D.config e).max_partition_retries = true ∧
        p = row.claimed now ∧ db.SetsPartition row p db' := by
  cases h with
  | partition_claimed hjob htenant hclaim hsets =>
    cases hp
    exact Or.inr ⟨_, _, _, _, rfl, rfl, rfl, hjob, htenant, hclaim, rfl, hsets⟩
  | call_fails =>
    left
    cases pc with
    | creating_children job todo max_depth n => cases todo <;> simp [Pc.on_error] at hp; cases hp
    | _ => first | exact hp | cases hp
  | job_claimed | discovered | child_created | child_refused | finished => simp at hp
  | asset_read =>
    rw [Pc.partition?_after_asset_read] at hp
    exact Or.inl hp
  | upstream_ready =>
    left
    split at hp <;> exact hp
  | _ => first | exact Or.inl hp | cases hp

/-- The local variables of the loop start from the claimed row and change only when the
    executor gives up a partition. -/
theorem Call.loop? (h : Call D e db pc a db' pc') {pl' : PartitionLoop}
    (hpl : pc'.loop? = some pl') :
    (pc.loop? = some pl' ∧ (pc'.partition? = none → pc.partition? = none)) ∨
      (∃ job cache, pc = .loading_cache job ∧ pc' = .checking_cancelled pl' ∧
        pl' = .start job cache) ∨
      ∃ pl p, pc.loop? = some pl ∧ pc.partition? = some p ∧ pc' = .reporting pl' ∧
        (pl' = pl.partition_ok p ∨
          pl' = pl.partition_err p (D.config e).max_partition_retries) := by
  cases h with
  | cache_loaded =>
    cases hpl
    exact Or.inr (Or.inl ⟨_, _, rfl, rfl, rfl⟩)
  -- a partition that goes back to the queue counts like one that is completed
  | requeued | completed =>
    cases hpl
    exact Or.inr (Or.inr ⟨_, _, rfl, rfl, rfl, Or.inl rfl⟩)
  | requeue_refused | completion_refused | failed | failure_refused =>
    cases hpl
    exact Or.inr (Or.inr ⟨_, _, rfl, rfl, rfl, Or.inr rfl⟩)
  | call_fails =>
    cases pc with
    | creating_children job todo max_depth n =>
      cases todo with
      | nil => cases hpl
      | cons asset todo =>
        rw [Pc.on_error_creating_children, Pc.loop?_next_child] at hpl
        cases hpl
    -- a cache that cannot be loaded does not keep the loop from starting
    | loading_cache job =>
      cases hpl
      exact Or.inr (Or.inl ⟨_, _, rfl, rfl, rfl⟩)
    | reading_asset | checking_upstream | requeueing | completing | failing =>
      cases hpl
      exact Or.inr (Or.inr ⟨_, _, rfl, rfl, rfl, Or.inr rfl⟩)
    -- the partition is still to be marked as failed
    | executing => exact Or.inl ⟨hpl, fun hno => by cases hno⟩
    | _ => cases hpl
  | job_claimed | discovered | child_created | child_refused | finished => simp at hpl
  | asset_read =>
    rw [Pc.loop?_after_asset_read] at hpl
    exact Or.inl ⟨hpl, fun hno => by rw [Pc.partition?_after_asset_read] at hno; cases hno⟩
  | upstream_ready =>
    split at hpl <;> exact Or.inl ⟨hpl, fun hno => by split at hno <;> cases hno⟩
  | _ => first | exact Or.inl ⟨hpl, fun hno => by first | exact hno | rfl⟩ | cases hpl

/-- An executor comes to finish a job when it finds no partition to claim. -/
theorem Call.finishing {pl : PartitionLoop} (h : Call D e db pc a db' (.finishing pl)) :
    pc = .claiming_partition pl ∧ ∃ now locked, a = .claim_pending_partition now locked := by
  generalize hpc' : Pc.finishing pl = pc' at h
  cases h with
  | no_partition_claimed =>
    cases hpc'
    exact ⟨rfl, _, _, rfl⟩
  | job_claimed | discovered | child_created | child_refused | finished =>
    have hloop : some pl = _ := congrArg Pc.loop? hpc'
    simp at hloop
  | asset_read =>
    have hpartition := congrArg Pc.partition? hpc'
    rw [Pc.partition?_after_asset_read] at hpartition
    cases hpartition
  | upstream_ready => split at hpc' <;> cases hpc'
  | call_fails =>
    cases pc with
    | creating_children job todo max_depth n =>
      cases todo with
      | nil => cases hpc'
      | cons asset todo =>
        have hloop := congrArg Pc.loop? hpc'
        rw [Pc.on_error_creating_children, Pc.loop?_next_child] at hloop
        cases hloop
    | _ => cases hpc'
  | _ => cases hpc'

/-- An executor comes to move a parent to `waiting_upstream` by counting its children. -/
theorem Call.entering_wait {job : BackfillJobModel}
    (h : Call D e db pc a db' (.entering_wait job)) :
    ∃ n, pc = .counting_children job n ∧ a = .update_backfill_upstream_count ∧
      ((∃ row : BackfillJobModel, row.id = job.id ∧ row.completed_upstream_jobs ≤ n ∧
        db.SetsJob row (row.upstreamCounted n) db') ∨
      ∀ row, db.job? job.id = some row → row.tenant_id ≠ D.tenant_id e) := by
  generalize hpc' : Pc.entering_wait job = pc' at h
  cases h with
  | children_counted hid _ hcount hsets =>
    cases hpc'
    exact ⟨_, rfl, rfl, Or.inl ⟨_, hid, hcount, hsets⟩⟩
  | no_children_counted hno =>
    cases hpc'
    exact ⟨_, rfl, rfl, Or.inr hno⟩
  | @job_claimed row now =>
    rcases Pc.process_job_cases (row.claimed now) with ⟨heq, -⟩ | ⟨heq, -⟩ <;>
      rw [heq] at hpc' <;> cases hpc'
  | @discovered job' reads =>
    rcases Pc.after_discovery_cases job' (discover_upstream_assets reads job'.asset_id
      job'.max_upstream_depth) with ⟨_, -, heq⟩ | ⟨-, heq⟩ | ⟨_, -, -, heq⟩ <;>
      rw [heq] at hpc' <;> cases hpc'
  | @child_created job' asset todo max_depth n | @child_refused job' asset todo max_depth n =>
    rcases Pc.next_child_cases job' todo max_depth _ with ⟨heq, -⟩ | heq <;>
      rw [heq] at hpc' <;> cases hpc'
  | finished | asset_read =>
    have hprocessing : some job = _ := congrArg Pc.propagating? hpc'
    simp at hprocessing
  | upstream_ready => split at hpc' <;> cases hpc'
  | call_fails =>
    cases pc with
    | creating_children job' todo max_depth n =>
      cases todo with
      | nil => cases hpc'
      | cons asset todo =>
        rw [Pc.on_error_creating_children] at hpc'
        rcases Pc.next_child_cases job' todo max_depth (created_after_error n _) with
          ⟨heq, -⟩ | heq <;> rw [heq] at hpc' <;> cases hpc'
    | _ => cases hpc'
  | _ => cases hpc'

/-- An executor comes to notify a parent by finishing one of its children. -/
theorem Call.notifying? (h : Call D e db pc a db' pc') {child : BackfillJobModel}
    {parent_id : Uuid} (hn : pc'.notifying? = some (child, parent_id)) :
    (pc = .incrementing child parent_id ∧ pc' = .releasing child parent_id) ∨
      ∃ l row now, pc = .finishing l ∧ a = .transition_backfill_job_state now ∧ child = l.job ∧
        l.job.parent_job_id = some parent_id ∧ row.id = l.job.id ∧
        row.tenant_id = D.tenant_id e ∧ row.state = .running ∧
        db.SetsJob row (row.transitioned l.final_state
          (l.error_message (D.config e).max_partition_retries) now) db' ∧
        (l.final_state = .completed ∧ pc' = .incrementing child parent_id ∨
          l.final_state = .failed ∧ pc' = .failing_parent child parent_id) := by
  cases h with
  | @finished l row now _ hid htenant hstate hsets =>
    right
    obtain h | ⟨parent_id', hparent, ⟨hfinal, h⟩ | ⟨hfinal, h⟩⟩ := Pc.after_finish_cases l
    · rw [h] at hn
      cases hn
    · rw [h] at hn
      cases hn
      exact ⟨l, row, now, rfl, rfl, rfl, hparent, hid, htenant, hstate, hsets,
        Or.inl ⟨hfinal, h⟩⟩
    · rw [h] at hn
      cases hn
      exact ⟨l, row, now, rfl, rfl, rfl, hparent, hid, htenant, hstate, hsets,
        Or.inr ⟨hfinal, h⟩⟩
  -- the second of the two calls for a completed child
  | incremented =>
    cases hn
    exact Or.inl ⟨rfl, rfl⟩
  | upstream_ready => split at hn <;> cases hn
  | job_claimed | discovered | child_created | child_refused | asset_read | call_fails =>
    simp at hn
  | _ => cases hn

end changes

end Servo
