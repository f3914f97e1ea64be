import Servo.Runtime.BackfillCalls
import Servo.Runtime.BackfillSystem

/-! # What One Step of the Backfill System Can Do

    The inversion of `next`, from three points of view:

    * a process: `executor_cases` and `client_cases` say that a process moves
      by its own calls only, and by which;
    * the job table: `JobWrite` lists the ways in which one step can rewrite a
      row of `backfill_jobs`, each with the program counter of the executor
      that does it, and `JobInsert` who inserts one; `job_rewrites` shows
      there are no others, `job_write` and `job_origin` say it for one row;
    * the partition table: `PartitionWrite`, `PartitionInsert` and
      `partition_rewrites` likewise.

    Rows are never deleted and keep their identity, and a terminal job keeps
    its state.
-/

namespace Servo

/-! ### Calls of a command line process -/

/-- One call of a command line process, by its outcome. -/
inductive CliCall (db : Db) : CliPc → CliAction → Db → CliPc → Prop where
  | started {req : BackfillRequest} :
      CliCall db .idle (.start req) db (next_check req req.partition_keys)
  | active_found {req : BackfillRequest} {key : String} {todo : List String} :
      CliCall db (.checking req (key :: todo)) .find_active_backfill_for_partition db .idle
  | no_active_found {req : BackfillRequest} {key : String} {todo : List String} :
      CliCall db (.checking req (key :: todo)) .find_active_backfill_for_partition db
        (next_check req todo)
  | job_created {req : BackfillRequest} {hreq : req.valid} {id : Uuid} {now : DateTime}
      {timestamp : String} {db' : Db} (hins : db.InsertsJob (req.job hreq id now timestamp) db') :
      CliCall db (.creating_job req) (.create_backfill_job id now timestamp) db'
        (next_partition id req.tenant_id req.partition_keys)
  | job_refused {req : BackfillRequest} {id : Uuid} {now : DateTime} {timestamp : String} :
      CliCall db (.creating_job req) (.create_backfill_job id now timestamp) db .idle
  | partition_created {id job_id : Uuid} {tenant_id : TenantId} {key : String}
      {todo : List String} {db' : Db} (hjob : ∃ job, db.job? job_id = some job)
      (hins : db.InsertsPartition (new_partition id job_id key tenant_id) db') :
      CliCall db (.creating_partitions job_id tenant_id (key :: todo))
        (.create_backfill_partition id) db' (next_partition job_id tenant_id todo)
  | partition_refused {id job_id : Uuid} {tenant_id : TenantId} {key : String}
      {todo : List String} :
      CliCall db (.creating_partitions job_id tenant_id (key :: todo))
        (.create_backfill_partition id) db .idle
  | abort {pc : CliPc} : CliCall db pc .abort db .idle

/-- `CliPc.step` does what `CliCall` lists and nothing else. -/
theorem CliPc.call_of_step {db db' : Db} {pc pc' : CliPc} {a : CliAction}
    (h : pc.step db a = some (db', pc')) : CliCall db pc a db' pc' := by
  unfold CliPc.step at h
  split at h
  · cases h; exact .started
  · cases h
    split
    · exact .active_found
    · exact .no_active_found
  · split at h
    · split at h
      · next hok => cases h; exact .job_created (Db.create_backfill_job_eq_ok hok).2
      · cases h; exact .job_refused
    · cases h; exact .job_refused
  · split at h
    · next hok =>
      cases h
      obtain ⟨-, hjob, hins⟩ := Db.create_backfill_partition_eq_ok hok
      exact .partition_created hjob hins
    · cases h; exact .partition_refused
  · cases h; exact .abort
  · cases h

namespace Backfill

open LTS

variable {D : Deployment} {s s' : State} {l : Label}

/-! ### Processes -/

theorem next_exec {e : ExecutorId} {a : Action} (h : next D s (.exec e a) = some s') :
    Call D e s.db (s.executors e) a s'.db (s'.executors e) ∧
      (∀ e', e' ≠ e → s'.executors e' = s.executors e') ∧ s'.clients = s.clients := by
  simp only [next] at h
  split at h
  · next db pc hstep =>
    cases h
    refine ⟨?_, fun e' hne => Function.update_of_ne hne _ _, rfl⟩
    simpa using Pc.call_of_step hstep
  · cases h

/-- The step of an executor is the step of its program counter. -/
theorem step_of_next_exec {e : ExecutorId} {a : Action} (h : next D s (.exec e a) = some s') :
    ∃ db pc, (s.executors e).step D e s.db a = some (db, pc) ∧
      s' = { s with db := db, executors := Function.update s.executors e pc } := by
  simp only [next] at h
  split at h
  · next db pc hstep => exact ⟨db, pc, hstep, (Option.some.inj h).symm⟩
  · cases h

theorem next_cli {c : ClientId} {a : CliAction} (h : next D s (.cli c a) = some s') :
    CliCall s.db (s.clients c) a s'.db (s'.clients c) ∧
      (∀ c', c' ≠ c → s'.clients c' = s.clients c') ∧ s'.executors = s.executors := by
  simp only [next] at h
  split at h
  · next db pc hstep =>
    cases h
    refine ⟨?_, fun c' hne => Function.update_of_ne hne _ _, rfl⟩
    simpa using CliPc.call_of_step hstep
  · cases h

/-- An executor moves by its own calls only. -/
theorem executor_cases (h : next D s l = some s') (e : ExecutorId) :
    s'.executors e = s.executors e ∨
      ∃ a, l = .exec e a ∧ Call D e s.db (s.executors e) a s'.db (s'.executors e) := by
  cases l with
  | exec e' a =>
    obtain ⟨hcall, hothers, -⟩ := next_exec h
    by_cases he : e = e'
    · subst he
      exact Or.inr ⟨a, rfl, hcall⟩
    · exact Or.inl (hothers e he)
  | cli c a => rw [(next_cli h).2.2]; exact Or.inl rfl
  | _ => simp only [next, Option.some.injEq] at h; subst h; exact Or.inl rfl

/-- A command line process moves by its own calls only. -/
theorem client_cases (h : next D s l = some s') (c : ClientId) :
    s'.clients c = s.clients c ∨
      ∃ a, l = .cli c a ∧ CliCall s.db (s.clients c) a s'.db (s'.clients c) := by
  cases l with
  | cli c' a =>
    obtain ⟨hcall, hothers, -⟩ := next_cli h
    by_cases hc : c = c'
    · subst hc
      exact Or.inr ⟨a, rfl, hcall⟩
    · exact Or.inl (hothers c hc)
  | exec e a => rw [(next_exec h).2.2]; exact Or.inl rfl
  | _ => simp only [next, Option.some.injEq] at h; subst h; exact Or.inl rfl

/-- An executor without a call in the run has not left its initial state. -/
theorem idle_of_no_call {tr : List Event} (hrun : Run (system D) tr s) {e : ExecutorId}
    (hno : ∀ st ∈ tr, ∀ a, st.label ≠ .exec e a) : s.executors e = .idle := by
  induction hrun with
  | init h => rw [h]; rfl
  | @step tr s₁ s₂ l hrun hs ih =>
    obtain heq | ⟨a, rfl, -⟩ := executor_cases hs e
    · rw [heq]
      exact ih fun st hmem => hno st (List.mem_cons_of_mem _ hmem)
    · exact absurd rfl (hno _ List.mem_cons_self a)

/-- The executors that have made a call. -/
def executors_of (tr : List Event) : List ExecutorId :=
  tr.filterMap (fun st => match st.label with
    | .exec e _ => some e
    | _ => none)

theorem mem_executors_of {tr : List Event} (hrun : Run (system D) tr s) {e : ExecutorId}
    (hpc : s.executors e ≠ .idle) : e ∈ executors_of tr := by
  by_contra hno
  refine hpc (idle_of_no_call hrun fun st hmem a hlabel => hno ?_)
  exact List.mem_filterMap.mpr ⟨st, hmem, by rw [hlabel]⟩

/-- A test for idle executors at the end of a run. -/
def all_idle_test (tr : List Event) (s : State) : Bool :=
  (executors_of tr).all (fun e => match s.executors e with
    | .idle => true
    | _ => false)

/-- If the executors that have made a call stand idle, all do. -/
theorem all_idle_of_test {tr : List Event} (hrun : Run (system D) tr s)
    (htest : all_idle_test tr s = true) (e : ExecutorId) : s.executors e = .idle := by
  by_contra hpc
  have hpassed := List.all_eq_true.mp htest e (mem_executors_of hrun hpc)
  split at hpassed
  · next hidle => exact hpc hidle
  · cases hpassed

/-- A test for quiescence at the end of a run. -/
def quiescent_test (tr : List Event) (s : State) : Bool :=
  (executors_of tr).all (fun e => match s.executors e with
    | .idle => true
    | _ => false) &&
  s.db.backfill_jobs.rows.all (fun job =>
    job.state ≠ .pending && job.state ≠ .resuming && job.state ≠ .running)

theorem quiescent_of_test {tr : List Event} (hrun : Run (system D) tr s)
    (htest : quiescent_test tr s = true) : Quiescent s := by
  rw [quiescent_test, Bool.and_eq_true] at htest
  obtain ⟨hidle, hjobs⟩ := htest
  refine ⟨all_idle_of_test hrun hidle, fun id job hjob => ?_⟩
  simp only [List.all_eq_true, Bool.and_eq_true, decide_eq_true_eq] at hjobs
  obtain ⟨⟨hpending, hresuming⟩, hrunning⟩ := hjobs job (Table.mem_of_find? hjob)
  exact ⟨hpending, hresuming, hrunning⟩

/-! ### Job rows -/

/-- `JobWrite D s l s' row row'`: the step `l` from `s` to `s'` leaves `row'` in
    the place of `row`. -/
inductive JobWrite (D : Deployment) (s : State) : Label → State → BackfillJobModel →
    BackfillJobModel → Prop where
  | unchanged {l : Label} {s' : State} {row : BackfillJobModel} : JobWrite D s l s' row row
  | claimed {e : ExecutorId} {now : DateTime} {locked : List Uuid} {s' : State}
      {row : BackfillJobModel} (hpc : s.executors e = .idle)
      (hpc' : s'.executors e = process_job (row.claimed now))
      (htenant : row.tenant_id = D.tenant_id e)
      (hclaim : row.claimable (D.config e).stale_heartbeat_threshold now = true) :
      JobWrite D s (.exec e (.claim_pending_backfill_job now locked)) s' row (row.claimed now)
  | discovery_failed {e : ExecutorId} {job : BackfillJobModel} {err : StorageError}
      {now : DateTime} {s' : State} {row : BackfillJobModel}
      (hpc : s.executors e = .failing_discovery job err) (hpc' : s'.executors e = .idle)
      (hid : row.id = job.id) (hstate : row.state = .running) :
      JobWrite D s (.exec e (.transition_backfill_job_state now)) s' row
        (row.transitioned .failed (some ("Upstream discovery failed: " ++ err.to_string)) now)
  | counted {e : ExecutorId} {job : BackfillJobModel} {n : Nat} {s' : State}
      {row : BackfillJobModel} (hpc : s.executors e = .counting_children job n)
      (hpc' : s'.executors e = .entering_wait job)
      (hid : row.id = job.id) (hcount : row.completed_upstream_jobs ≤ n) :
      JobWrite D s (.exec e .update_backfill_upstream_count) s' row (row.upstreamCounted n)
  | wait_entered {e : ExecutorId} {job : BackfillJobModel} {now : DateTime} {s' : State}
      {row : BackfillJobModel} (hpc : s.executors e = .entering_wait job)
      (hpc' : s'.executors e = .idle) (hid : row.id = job.id) (hstate : row.state = .running) :
      JobWrite D s (.exec e (.transition_backfill_job_state now)) s' row
        (row.transitioned .waiting_upstream none now)
  | beat {e : ExecutorId} {pl : PartitionLoop} {now : DateTime} {s' : State}
      {row : BackfillJobModel} (hpc : s.executors e = .beating pl)
      (hpc' : s'.executors e = .claiming_partition pl)
      (hid : row.id = pl.job.id) (hstate : row.state = .running) :
      JobWrite D s (.exec e (.update_backfill_job_heartbeat now)) s' row (row.heartbeat now)
  | reported {e : ExecutorId} {pl : PartitionLoop} {now : DateTime} {s' : State}
      {row : BackfillJobModel} (hpc : s.executors e = .reporting pl)
      (hpc' : s'.executors e = .checking_cancelled pl)
      (hid : row.id = pl.job.id) (hstate : row.state = .running) :
      JobWrite D s (.exec e (.update_backfill_job_progress_with_eta now)) s' row
        (row.progressed pl.progress now)
  | finished {e : ExecutorId} {pl : PartitionLoop} {now : DateTime} {s' : State}
      {row : BackfillJobModel} (hpc : s.executors e = .finishing pl)
      (hpc' : s'.executors e = after_finish pl)
      (hid : row.id = pl.job.id) (hstate : row.state = .running) :
      JobWrite D s (.exec e (.transition_backfill_job_state now)) s' row
        (row.transitioned pl.final_state
          (pl.error_message (D.config e).max_partition_retries) now)
  | incremented {e : ExecutorId} {child : BackfillJobModel} {s' : State} {row : BackfillJobModel}
      (hpc : s.executors e = .incrementing child row.id)
      (hpc' : s'.executors e = .releasing child row.id) (hguard : row.may_increment = true) :
      JobWrite D s (.exec e .increment_completed_upstream) s' row row.upstreamIncremented
  | released {e : ExecutorId} {child : BackfillJobModel} {s' : State} {row : BackfillJobModel}
      (hpc : s.executors e = .releasing child row.id) (hpc' : s'.executors e = .idle)
      (hguard : row.releasable = true)
      (hsuccess : (s.db.try_transition_parent_to_pending row.id (D.tenant_id e)).1 = true) :
      JobWrite D s (.exec e .try_transition_parent_to_pending) s' row row.releasedToPending
  | failed_by_child {e : ExecutorId} {child : BackfillJobModel} {msg : String} {now : DateTime}
      {s' : State} {row : BackfillJobModel} (hpc : s.executors e = .failing_parent child row.id)
      (hpc' : s'.executors e = .idle) (hstate : row.state = .waiting_upstream) :
      JobWrite D s (.exec e (.fail_parent_on_child_failure now)) s' row
        (row.failedByChild msg now)
  | cancelled {reason : Option String} {tenant_id : TenantId} {now : DateTime} {s' : State}
      {row : BackfillJobModel} (htenant : row.tenant_id = tenant_id)
      (hstate : row.state.cancellable = true) :
      JobWrite D s (.cancel_backfill_job row.id reason tenant_id now) s' row
        (row.cancelledFor (reason.getD "Cancelled by user") now)
  | tree_cancelled {root_job_id : Uuid} {reason : String} {tenant_id : TenantId}
      {now : DateTime} {s' : State} {row : BackfillJobModel}
      (htree : row.in_tree root_job_id tenant_id = true)
      (hstate : row.state.cancellable = true) :
      JobWrite D s (.cancel_job_tree root_job_id reason tenant_id now) s' row
        (row.cancelledFor reason now)
  | paused {tenant_id : TenantId} {now : DateTime} {s' : State} {row : BackfillJobModel}
      (htenant : row.tenant_id = tenant_id) (hstate : row.state = .running) :
      JobWrite D s (.pause_backfill_job row.id tenant_id now) s' row
        (row.pausedAt (s.db.last_completed_partition row.id tenant_id) now)
  | resumed {tenant_id : TenantId} {now : DateTime} {s' : State} {row : BackfillJobModel}
      (htenant : row.tenant_id = tenant_id) (hstate : row.state = .paused) :
      JobWrite D s (.resume_backfill_job row.id tenant_id now) s' row (row.resumed now)

/-! ### New job rows -/

/-- `JobInsert D s l s' row`: the step `l` from `s` to `s'` inserts the job `row`. -/
inductive JobInsert (D : Deployment) (s : State) : Label → State → BackfillJobModel → Prop where
  | by_client {c : ClientId} {req : BackfillRequest} {hreq : req.valid} {id : Uuid}
      {now : DateTime} {timestamp : String} {s' : State}
      (hpc : s.clients c = .creating_job req)
      (hpc' : s'.clients c = next_partition id req.tenant_id req.partition_keys) :
      JobInsert D s (.cli c (.create_backfill_job id now timestamp)) s'
        (req.job hreq id now timestamp)
  | by_parent {e : ExecutorId} {job : BackfillJobModel} {asset : UpstreamAsset}
      {todo : List UpstreamAsset} {max_depth : Int} {n : Nat} {up down : Option PartitionConfig}
      {id : Uuid} {now : DateTime} {s' : State}
      (hpc : s.executors e = .creating_children job (asset :: todo) max_depth n)
      (hpc' : s'.executors e = next_child job todo max_depth (n + 1)) :
      JobInsert D s (.exec e (.create_upstream_child_job up down id now)) s'
        ((D.child_params job asset max_depth up down).row (D.tenant_id e) id now)

/-! ### The job table -/

/-- The tables after a user operation, which is rolled back if it fails. -/
theorem db_of_settle {result : Except StorageError Db}
    (h : some { s with db := settle s.db result } = some s') :
    s'.db = result.toOption.getD s.db := by
  cases h
  cases result with
  | error err => rfl
  | ok db' => rfl

/-- **Table inversion**: one step rewrites the job rows as `JobWrite` lists, and inserts a
    row as `JobInsert` does. -/
theorem job_rewrites (h : next D s l = some s') :
    Table.Rewrites (JobWrite D s l s')
      (fun row' => s.db.InsertsJob row' s'.db ∧ JobInsert D s l s' row') s.db.job? s'.db.job? := by
  have hrefl : ∀ row, JobWrite D s l s' row row := fun _ => .unchanged
  cases l with
  | exec e a =>
    obtain ⟨hcall, -, -⟩ := next_exec h
    generalize hpc : s.executors e = pc at hcall
    generalize hpc' : s'.executors e = pc' at hcall
    generalize s'.db = db' at hcall ⊢
    cases hcall with
    | job_claimed htenant hclaim hsets =>
      exact hsets.rewrites hrefl (.claimed hpc hpc' htenant hclaim)
    | discovery_failed hid _ hstate hsets =>
      exact hsets.rewrites hrefl (.discovery_failed hpc hpc' hid hstate)
    | children_counted hid _ hcount hsets =>
      exact hsets.rewrites hrefl (.counted hpc hpc' hid hcount)
    | wait_entered hid _ hstate hsets =>
      exact hsets.rewrites hrefl (.wait_entered hpc hpc' hid hstate)
    | beat hid _ hstate hsets => exact hsets.rewrites hrefl (.beat hpc hpc' hid hstate)
    | reported hid _ hstate hsets => exact hsets.rewrites hrefl (.reported hpc hpc' hid hstate)
    | finished hid _ hstate hsets => exact hsets.rewrites hrefl (.finished hpc hpc' hid hstate)
    | incremented hid _ hguard hsets =>
      subst hid
      exact hsets.rewrites hrefl (.incremented hpc hpc' hguard)
    | released hid htenant hguard hsuccess hsets =>
      subst hid
      exact hsets.rewrites hrefl (.released hpc hpc' hguard hsuccess)
    | parent_failed hid _ hstate hsets =>
      subst hid
      exact hsets.rewrites hrefl (.failed_by_child hpc hpc' hstate)
    | child_created hins => exact hins.rewrites hrefl ⟨hins, .by_parent hpc hpc'⟩
    | partition_claimed _ _ _ hsets | requeued _ _ hsets | completed _ _ hsets
    | failed _ _ hsets => exact Db.rewrites_of_jobs_eq hsets.jobs_eq hrefl
    -- the other calls leave the tables alone
    | _ => exact Db.rewrites_of_jobs_eq rfl hrefl
  | cli c a =>
    obtain ⟨hcall, -, -⟩ := next_cli h
    generalize hpc : s.clients c = pc at hcall
    generalize hpc' : s'.clients c = pc' at hcall
    generalize s'.db = db' at hcall ⊢
    cases hcall with
    | job_created hins => exact hins.rewrites hrefl ⟨hins, .by_client hpc hpc'⟩
    | partition_created _ hins => exact Db.rewrites_of_jobs_eq hins.jobs_eq hrefl
    | _ => exact Db.rewrites_of_jobs_eq rfl hrefl
  | cancel_backfill_job job_id reason tenant_id now =>
    rw [db_of_settle h]
    apply Table.Rewrites.of_ok (g := Db.job?) hrefl
    intro db' hok
    obtain ⟨row, hrow, htenant, hstate, hjobs, -⟩ := Db.cancel_backfill_job_eq_ok hok
    have hid := Db.id_of_job? hrow
    subst hid
    exact .set hrefl hrow hjobs (.cancelled htenant hstate)
  | cancel_job_tree root_job_id reason tenant_id now =>
    simp only [next, Option.some.injEq] at h
    subst h
    apply Table.Rewrites.map (Db.job?_cancel_job_tree s.db root_job_id reason tenant_id now)
    intro row
    split
    · next hguard => exact .tree_cancelled hguard.1 hguard.2
    · exact .unchanged
  | pause_backfill_job job_id tenant_id now =>
    rw [db_of_settle h]
    apply Table.Rewrites.of_ok (g := Db.job?) hrefl
    intro db' hok
    obtain ⟨row, hid, htenant, hstate, hsets⟩ := Db.pause_backfill_job_eq_ok hok
    subst hid
    exact hsets.rewrites hrefl (.paused htenant hstate)
  | resume_backfill_job job_id tenant_id now =>
    rw [db_of_settle h]
    apply Table.Rewrites.of_ok (g := Db.job?) hrefl
    intro db' hok
    obtain ⟨row, hid, htenant, hstate, hsets⟩ := Db.resume_backfill_job_eq_ok hok
    subst hid
    exact hsets.rewrites hrefl (.resumed htenant hstate)

/-- **Row inversion**: a job row survives every step, rewritten as `JobWrite` lists. -/
theorem job_write (h : next D s l = some s') {id : Uuid} {row : BackfillJobModel}
    (hrow : s.db.job? id = some row) :
    ∃ row', s'.db.job? id = some row' ∧ JobWrite D s l s' row row' :=
  (job_rewrites h).kept id row hrow

/-- **Origin of job rows**: every row after a step was there before, rewritten as
    `JobWrite` lists, or has been inserted. -/
theorem job_origin (h : next D s l = some s') {id : Uuid} {row' : BackfillJobModel}
    (hrow' : s'.db.job? id = some row') :
    (∃ row, s.db.job? id = some row ∧ JobWrite D s l s' row row') ∨
      (s.db.job? id = none ∧ s.db.InsertsJob row' s'.db ∧ JobInsert D s l s' row') :=
  (job_rewrites h).origin hrow'

/-! ### What a write of a job row preserves -/

section JobWrite
variable {row row' : BackfillJobModel}

theorem JobWrite.identity_eq (h : JobWrite D s l s' row row') : row'.identity = row.identity := by
  cases h <;> first | rfl | simp

/-- Terminal states are absorbing. -/
theorem JobWrite.state_of_terminal (h : JobWrite D s l s' row row')
    (hterminal : row.state.terminal = true) : row'.state = row.state := by
  cases h with
  | unchanged => rfl
  | claimed _ _ _ hclaim =>
    unfold BackfillJobModel.claimable at hclaim
    split at hclaim <;> simp_all [BackfillState.terminal]
  | counted => exact BackfillJobModel.state_upstreamCounted _ _
  | incremented => exact BackfillJobModel.state_upstreamIncremented _
  | released _ _ hguard =>
    simp only [BackfillJobModel.releasable, Bool.and_eq_true, decide_eq_true_eq] at hguard
    rw [hguard.1.1] at hterminal
    cases hterminal
  | cancelled _ hstate | tree_cancelled _ hstate =>
    cases hrow : row.state <;> simp_all [BackfillState.terminal, BackfillState.cancellable]
  | discovery_failed _ _ _ hstate | wait_entered _ _ _ hstate | beat _ _ _ hstate
  | reported _ _ _ hstate | finished _ _ _ hstate | failed_by_child _ _ hstate
  | paused _ hstate | resumed _ hstate =>
    rw [hstate] at hterminal
    cases hterminal

/-- A job becomes completed by the final transition of an executor, and by nothing else. -/
theorem JobWrite.completed_cases (h : JobWrite D s l s' row row')
    (hstate' : row'.state = .completed) :
    row.state = .completed ∨
      ∃ e pl, s.executors e = .finishing pl ∧ s'.executors e = after_finish pl ∧
        row.id = pl.job.id ∧ pl.final_state = .completed := by
  cases h with
  | unchanged | beat | reported => exact Or.inl hstate'
  | counted => exact Or.inl ((BackfillJobModel.state_upstreamCounted _ _).symm.trans hstate')
  | incremented => exact Or.inl ((BackfillJobModel.state_upstreamIncremented _).symm.trans hstate')
  | finished hpc hpc' hid _ => exact Or.inr ⟨_, _, hpc, hpc', hid, hstate'⟩
  | _ => cases hstate'

/-- A job comes to wait by the transition after its children have been counted, and by
    nothing else. -/
theorem JobWrite.waiting_cases (h : JobWrite D s l s' row row')
    (hstate' : row'.state = .waiting_upstream) :
    row.state = .waiting_upstream ∨
      ∃ e job now, l = .exec e (.transition_backfill_job_state now) ∧
        s.executors e = .entering_wait job ∧ row.id = job.id := by
  cases h with
  | unchanged | beat | reported => exact Or.inl hstate'
  | counted => exact Or.inl ((BackfillJobModel.state_upstreamCounted _ _).symm.trans hstate')
  | incremented => exact Or.inl ((BackfillJobModel.state_upstreamIncremented _).symm.trans hstate')
  | finished => exact absurd hstate' (PartitionLoop.final_state_ne (by decide) (by decide))
  | wait_entered hpc _ hid _ => exact Or.inr ⟨_, _, _, rfl, hpc, hid⟩
  | _ => cases hstate'

/-- The counter of completed children moves by increments only, one at a time. -/
theorem JobWrite.completed_upstream_jobs_cases (h : JobWrite D s l s' row row') :
    row'.completed_upstream_jobs = row.completed_upstream_jobs ∨
      ∃ e child, l = .exec e .increment_completed_upstream ∧
        s.executors e = .incrementing child row.id ∧
        s'.executors e = .releasing child row.id ∧
        row'.completed_upstream_jobs = row.completed_upstream_jobs + 1 := by
  cases h with
  | counted _ _ _ hcount => exact Or.inl (BackfillJobModel.upstreamCounted_eq _ hcount).1
  | incremented hpc hpc' hguard =>
    exact Or.inr ⟨_, _, rfl, hpc, hpc', (BackfillJobModel.upstreamIncremented_eq _ hguard).1⟩
  | _ => exact Or.inl rfl

/-- The count of children is written by `update_backfill_upstream_count` only. -/
theorem JobWrite.upstream_job_count_cases (h : JobWrite D s l s' row row') :
    row'.upstream_job_count = row.upstream_job_count ∨
      ∃ e job n, l = .exec e .update_backfill_upstream_count ∧
        s.executors e = .counting_children job n ∧ row.id = job.id ∧
        row'.upstream_job_count = n := by
  cases h with
  | counted hpc _ hid hcount =>
    exact Or.inr ⟨_, _, _, rfl, hpc, hid, (BackfillJobModel.upstreamCounted_eq _ hcount).2⟩
  | incremented _ _ hguard => exact Or.inl (BackfillJobModel.upstreamIncremented_eq _ hguard).2
  | _ => exact Or.inl rfl

end JobWrite

/-! ### Partition rows -/

/-- `PartitionWrite D s l s' row row'`: the step `l` from `s` to `s'` leaves `row'`
    in the place of the partition row `row`. -/
inductive PartitionWrite (D : Deployment) (s : State) : Label → State →
    BackfillPartitionModel → BackfillPartitionModel → Prop where
  | unchanged {l : Label} {s' : State} {row : BackfillPartitionModel} :
      PartitionWrite D s l s' row row
  | claimed {e : ExecutorId} {pl : PartitionLoop} {now : DateTime} {locked : List Uuid}
      {s' : State} {row : BackfillPartitionModel} (hpc : s.executors e = .claiming_partition pl)
      (hpc' : s'.executors e = .reading_asset pl (row.claimed now))
      (hjob : row.backfill_job_id = pl.job.id) (htenant : row.tenant_id = D.tenant_id e)
      (hclaim : row.claimable (D.config e).max_partition_retries = true) :
      PartitionWrite D s (.exec e (.claim_pending_partition now locked)) s' row (row.claimed now)
  | requeued {e : ExecutorId} {pl : PartitionLoop} {p : BackfillPartitionModel} {s' : State}
      {row : BackfillPartitionModel} (hpc : s.executors e = .requeueing pl p)
      (hpc' : s'.executors e = .reporting (pl.partition_ok p)) (hid : row.id = p.id)
      (hstate : row.state = .running) :
      PartitionWrite D s (.exec e .requeue_backfill_partition) s' row row.requeued
  | completed {e : ExecutorId} {pl : PartitionLoop} {p : BackfillPartitionModel}
      {execution_id : Uuid} {duration_ms : Int} {now : DateTime} {s' : State}
      {row : BackfillPartitionModel} (hpc : s.executors e = .completing pl p execution_id)
      (hpc' : s'.executors e = .reporting (pl.partition_ok p)) (hid : row.id = p.id)
      (hstate : row.state = .running) :
      PartitionWrite D s (.exec e (.complete_backfill_partition duration_ms now)) s' row
        (row.completedBy (some execution_id) duration_ms now)
  | failed {e : ExecutorId} {pl : PartitionLoop} {p : BackfillPartitionModel} {err : String}
      {duration_ms : Int} {now : DateTime} {s' : State} {row : BackfillPartitionModel}
      (hpc : s.executors e = .failing pl p err)
      (hpc' : s'.executors e =
        .reporting (pl.partition_err p (D.config e).max_partition_retries))
      (hid : row.id = p.id) (hstate : row.state = .running) :
      PartitionWrite D s (.exec e (.fail_backfill_partition duration_ms now)) s' row
        (row.failedWith err duration_ms now)
  | skipped {msg : String} {now : DateTime} {l : Label} {s' : State}
      {row : BackfillPartitionModel} (hstate : row.state = .pending) :
      PartitionWrite D s l s' row (row.skippedFor msg now)

/-- `PartitionInsert s l s' row'`: a command line process inserts the partition `row'` of a
    job that exists. -/
def PartitionInsert (s : State) (l : Label) (s' : State) (row' : BackfillPartitionModel) : Prop :=
  ∃ c id' job_id tenant_id key todo, l = .cli c (.create_backfill_partition id') ∧
    row' = new_partition id' job_id key tenant_id ∧
    (∃ job, s.db.job? job_id = some job) ∧
    s.clients c = .creating_partitions job_id tenant_id (key :: todo) ∧
    s'.clients c = next_partition job_id tenant_id todo

/-! ### The partition table -/

/-- **Table inversion** for partitions. -/
theorem partition_rewrites (h : next D s l = some s') :
    Table.Rewrites (PartitionWrite D s l s')
      (fun row' => s.db.InsertsPartition row' s'.db ∧ PartitionInsert s l s' row')
      s.db.partition? s'.db.partition? := by
  have hrefl : ∀ row, PartitionWrite D s l s' row row := fun _ => .unchanged
  cases l with
  | exec e a =>
    obtain ⟨hcall, -, -⟩ := next_exec h
    generalize hpc : s.executors e = pc at hcall
    generalize hpc' : s'.executors e = pc' at hcall
    generalize s'.db = db' at hcall ⊢
    cases hcall with
    | partition_claimed hjob htenant hclaim hsets =>
      exact hsets.rewrites hrefl (.claimed hpc hpc' hjob htenant hclaim)
    | requeued hid hstate hsets => exact hsets.rewrites hrefl (.requeued hpc hpc' hid hstate)
    | completed hid hstate hsets => exact hsets.rewrites hrefl (.completed hpc hpc' hid hstate)
    | failed hid hstate hsets => exact hsets.rewrites hrefl (.failed hpc hpc' hid hstate)
    | job_claimed _ _ h₁ | discovery_failed _ _ _ h₁ | children_counted _ _ _ h₁
    | wait_entered _ _ _ h₁ | beat _ _ _ h₁ | reported _ _ _ h₁ | finished _ _ _ h₁
    | incremented _ _ _ h₁ | released _ _ _ _ h₁ | parent_failed _ _ _ h₁ | child_created h₁ =>
      -- these write the job table only
      exact Db.rewrites_of_partitions_eq h₁.partitions_eq hrefl
    | _ => exact Db.rewrites_of_partitions_eq rfl hrefl
  | cli c a =>
    obtain ⟨hcall, -, -⟩ := next_cli h
    generalize hpc : s.clients c = pc at hcall
    generalize hpc' : s'.clients c = pc' at hcall
    generalize s'.db = db' at hcall ⊢
    cases hcall with
    | job_created h₁ => exact Db.rewrites_of_partitions_eq h₁.partitions_eq hrefl
    | partition_created hjob hins =>
      exact hins.rewrites hrefl ⟨hins, _, _, _, _, _, _, rfl, rfl, hjob, hpc, hpc'⟩
    | _ => exact Db.rewrites_of_partitions_eq rfl hrefl
  | cancel_backfill_job job_id reason tenant_id now =>
    rw [db_of_settle h]
    apply Table.Rewrites.of_ok (g := Db.partition?) hrefl
    intro db' hok
    obtain ⟨-, -, -, -, -, hpartitions⟩ := Db.cancel_backfill_job_eq_ok hok
    apply Table.Rewrites.map hpartitions
    intro row
    split
    · next hguard => exact .skipped hguard.2.2
    · exact .unchanged
  | cancel_job_tree root_job_id reason tenant_id now =>
    simp only [next, Option.some.injEq] at h
    subst h
    apply Table.Rewrites.map (Db.partition?_cancel_job_tree s.db root_job_id reason tenant_id now)
    intro row
    split
    · next hguard => exact .skipped hguard.1
    · exact .unchanged
  | pause_backfill_job job_id tenant_id now =>
    rw [db_of_settle h]
    apply Table.Rewrites.of_ok (g := Db.partition?) hrefl
    intro db' hok
    obtain ⟨_, _, _, _, hsets⟩ := Db.pause_backfill_job_eq_ok hok
    exact Db.rewrites_of_partitions_eq hsets.partitions_eq hrefl
  | resume_backfill_job job_id tenant_id now =>
    rw [db_of_settle h]
    apply Table.Rewrites.of_ok (g := Db.partition?) hrefl
    intro db' hok
    obtain ⟨_, _, _, _, hsets⟩ := Db.resume_backfill_job_eq_ok hok
    exact Db.rewrites_of_partitions_eq hsets.partitions_eq hrefl

/-- **Row inversion** for partitions. -/
theorem partition_write (h : next D s l = some s') {id : Uuid} {row : BackfillPartitionModel}
    (hrow : s.db.partition? id = some row) :
    ∃ row', s'.db.partition? id = some row' ∧ PartitionWrite D s l s' row row' :=
  (partition_rewrites h).kept id row hrow

/-- A partition row that was not there before a step has been inserted by a command
    line process, for a job that exists. -/
theorem partition_insert (h : next D s l = some s') {id : Uuid} {row' : BackfillPartitionModel}
    (hnone : s.db.partition? id = none) (hrow' : s'.db.partition? id = some row') :
    s.db.InsertsPartition row' s'.db ∧ PartitionInsert s l s' row' :=
  (partition_rewrites h).new id row' hnone hrow'

/-- **Origin of partition rows**: every row after a step was there before, rewritten
    as `PartitionWrite` lists, or has been inserted by a command line process. -/
theorem partition_origin (h : next D s l = some s') {id : Uuid} {row' : BackfillPartitionModel}
    (hrow' : s'.db.partition? id = some row') :
    (∃ row, s.db.partition? id = some row ∧ PartitionWrite D s l s' row row') ∨
      (s.db.partition? id = none ∧ s.db.InsertsPartition row' s'.db ∧
        PartitionInsert s l s' row') :=
  (partition_rewrites h).origin hrow'

theorem PartitionWrite.identity_eq {row row' : BackfillPartitionModel}
    (h : PartitionWrite D s l s' row row') : row'.identity = row.identity := by
  cases h <;> rfl

end Backfill

end Servo
