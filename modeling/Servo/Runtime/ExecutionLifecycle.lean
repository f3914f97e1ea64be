import Servo.Runtime.Orchestrator

/-! # The Lifecycle of an Execution

    Four programs write the state of an execution: a run of `LocalExecutor`,
    `LocalExecutor::cancel`, `CloudRunExecutor::cancel`, and `execute` of the
    worker, which goes through the orchestrator. Each of their writes is a
    read of the row, a decision, and an unconditional update of the row.

    They do not decide alike. The orchestrator asks for the state it expects.
    The cancellations leave alone the states they know to be terminal, which
    `timeout` is not. A run of `LocalExecutor` asks for nothing. And
    `LocalExecutor::cancel` returns `Ok` when it could not read the row.

    So a terminal execution stays terminal in the runs whose steps are
    `careful`: nobody comes between the read and the write of another call,
    the runs of `LocalExecutor` and the cancellations do not read a state that
    they fail to respect, and a cancellation can read what it is to cancel.
-/

namespace Servo.Lifecycle

open LTS

/-! ### Decisions -/

/-- `LocalExecutor::update_execution_state` between its read and its write. -/
def update_execution_state (state : ExecutionState) (error_message : Option String)
    (execution : ExecutionModel) (updated_at stamp : DateTime) : ExecutionModel :=
  { execution with
    state := state
    updated_at := updated_at
    started_at := if state = .running then some stamp else execution.started_at
    completed_at :=
      if state = .succeeded ∨ state = .failed ∨ state = .cancelled then some stamp
      else execution.completed_at
    error_message := error_message.or execution.error_message }

/-- The row that both cancellations write. -/
def cancelled (execution : ExecutionModel) (updated_at stamp : DateTime) : ExecutionModel :=
  { execution with
    state := .cancelled
    completed_at := some stamp
    updated_at := updated_at }

/-- `LocalExecutor::cancel`: only cancel if not already in terminal state. -/
def local_cancel (execution : ExecutionModel) (updated_at stamp : DateTime) :
    Option ExecutionModel :=
  if execution.state ≠ .succeeded ∧ execution.state ≠ .failed ∧ execution.state ≠ .cancelled then
    some (cancelled execution updated_at stamp)
  else none

/-- `CloudRunExecutor::cancel`. -/
def cloud_cancel (execution : ExecutionModel) (updated_at stamp : DateTime) :
    Option ExecutionModel :=
  match execution.state with
  | .pending | .running => some (cancelled execution updated_at stamp)
  -- Already terminal state
  | .succeeded | .failed | .cancelled => none
  -- Unknown execution state: a warning, and the cancellation goes on
  | _ => some (cancelled execution updated_at stamp)

/-! ### Programs -/

/-- A read and a write of an execution, by the place of the program that performs it. -/
inductive Task where
  /-- Update state to running. -/
  | local_start
  /-- Update final state based on result, an error by its text. -/
  | local_finish (result : Except String Unit)
  | local_cancel
  | cloud_cancel
  /-- Transition to Running state. -/
  | worker_start
  | worker_succeed
  /-- The timeout, by its `Debug` text. -/
  | worker_timeout (duration : String)
  | worker_record_timeout (duration : String)
  | worker_fail (error : String)

/-- What is decided on the row that has been read: an error, nothing to write, or the row to
    write. -/
def Task.decide (task : Task) (current : ExecutionModel) (updated_at stamp : DateTime) :
    Except RuntimeError (Option ExecutionModel) :=
  match task with
  | .local_start => .ok (some (update_execution_state .running none current updated_at stamp))
  | .local_finish (.ok ()) =>
    .ok (some (update_execution_state .succeeded none current updated_at stamp))
  | .local_finish (.error e) =>
    .ok (some (update_execution_state .failed (some e) current updated_at stamp))
  | .local_cancel => .ok (Lifecycle.local_cancel current updated_at stamp)
  | .cloud_cancel => .ok (Lifecycle.cloud_cancel current updated_at stamp)
  | .worker_start => (transition_state .pending .running current updated_at stamp).map some
  | .worker_succeed => (transition_state .running .succeeded current updated_at stamp).map some
  | .worker_timeout _ => (transition_state .running .timeout current updated_at stamp).map some
  | .worker_record_timeout duration =>
    (record_failure ("Execution timeout after " ++ duration) current updated_at stamp).map some
  | .worker_fail e => (record_failure e current updated_at stamp).map some

/-- The tasks of a run of `LocalExecutor`. -/
def Task.is_local_run : Task → Bool
  | .local_start | .local_finish _ => true
  | _ => false

/-- The tasks of the two cancellations. -/
def Task.is_cancel : Task → Bool
  | .local_cancel | .cloud_cancel => true
  | _ => false

def Task.is_local_cancel : Task → Bool
  | .local_cancel => true
  | _ => false

/-- The state that is written. -/
def Task.target : Task → ExecutionState
  | .local_start | .worker_start => .running
  | .local_finish (.ok ()) | .worker_succeed => .succeeded
  | .local_finish (.error _) | .worker_record_timeout _ | .worker_fail _ => .failed
  | .local_cancel | .cloud_cancel => .cancelled
  | .worker_timeout _ => .timeout

/-- Where a process stands: what it does next. -/
inductive Pc where
  | idle
  /-- `get_execution`. -/
  | reading (task : Task) (id : Uuid)
  /-- `update_execution`, after the row `current` has been read. -/
  | writing (task : Task) (id : Uuid) (current updated : ExecutionModel)
  /-- `run_workflow_locally`: check if already cancelled. -/
  | starting_workflow (id : Uuid)
  /-- `get_workflow` and `get_workflow_assets`. -/
  | loading_workflow (id : Uuid)
  /-- Check for cancellation between assets; how many are left. -/
  | checking_cancelled (id : Uuid) (todo : Nat)
  /-- `execute_asset_python`. -/
  | executing_asset (id : Uuid) (todo : Nat)
  /-- `execute_workflow` of the worker, with its timeout. -/
  | executing_workflow (id : Uuid)

/-- What follows a write. -/
def Task.next (task : Task) (id : Uuid) : Pc :=
  match task with
  | .local_start => .starting_workflow id
  | .worker_start => .executing_workflow id
  | .worker_timeout duration => .reading (.worker_record_timeout duration) id
  | _ => .idle

/-- The assets of a run that are left. -/
def next_asset (id : Uuid) : Nat → Pc
  | 0 => .reading (.local_finish (.ok ())) id
  | todo + 1 => .checking_cancelled id (todo + 1)

/-- The outcome of `execute_workflow` in the worker. -/
inductive WorkflowResult where
  | succeeded
  | timeout (duration : String)
  | failed (error : String)

/-- What the worker writes then. -/
def WorkflowResult.task : WorkflowResult → Task
  | .succeeded => .worker_succeed
  | .timeout duration => .worker_timeout duration
  | .failed e => .worker_fail e

/-! ### The system -/

abbrev ProcessId : Type := Nat

/-- Instances of `LocalExecutor`. -/
abbrev InstanceId : Type := Nat

/-- The tenant of each process, and the instance of `LocalExecutor` it calls. -/
structure Deployment where
  tenant_id : ProcessId → TenantId
  instance_of : ProcessId → InstanceId

structure State where
  executions : Executions
  processes : ProcessId → Pc
  /-- In-memory state for cancelled executions. -/
  cancelled : InstanceId → List Uuid

inductive Label where
  /-- `LocalExecutor::execute_with_idempotency`, which creates the execution `id`. -/
  | execute_with_idempotency (p : ProcessId) (id workflow_id : Uuid)
      (idempotency_key : Option String) (now : DateTime)
  | local_cancel (p : ProcessId) (id : Uuid)
  | cloud_cancel (p : ProcessId) (id : Uuid)
  /-- `execute` of the worker. -/
  | execute (p : ProcessId) (id : Uuid)
  | get_execution (p : ProcessId) (updated_at stamp : DateTime)
  | read_fails (p : ProcessId) (error : StorageError)
  | update_execution (p : ProcessId)
  | write_fails (p : ProcessId) (error : StorageError)
  | check_cancelled (p : ProcessId)
  | load_workflow (p : ProcessId) (assets : Except String Nat)
  | execute_asset_python (p : ProcessId) (result : Except String Unit)
  | execute_workflow (p : ProcessId) (result : WorkflowResult)
  | crash (p : ProcessId)

def State.goto (s : State) (p : ProcessId) (pc : Pc) : State :=
  { s with processes := Function.update s.processes p pc }

/-- The error of a run that finds itself cancelled. -/
def was_cancelled : String := "Execution error: Execution was cancelled"

/-- The row of a new execution. -/
def new_execution (id workflow_id : Uuid) (tenant_id : TenantId)
    (idempotency_key : Option String) (now : DateTime) : ExecutionModel where
  id := id
  workflow_id := workflow_id
  state := .pending
  tenant_id := some tenant_id
  idempotency_key := idempotency_key
  started_at := none
  completed_at := none
  error_message := none
  created_at := now
  updated_at := now

/-- One transaction, or one computation between two. A program that returns leaves its
    process idle. -/
def next (D : Deployment) (s : State) : Label → Option State
  | .execute_with_idempotency p id workflow_id idempotency_key now =>
    match s.processes p with
    | .idle =>
      match s.executions.create_execution_or_get_existing
          (new_execution id workflow_id (D.tenant_id p) idempotency_key now) (D.tenant_id p) with
      | .ok (executions, actual_execution_id, true) =>
        some { s.goto p (.reading .local_start actual_execution_id) with executions := executions }
      -- Return existing execution
      | .ok (executions, _, false) => some { s with executions := executions }
      | .error _ => some s
    | _ => none
  | .local_cancel p id =>
    match s.processes p with
    | .idle =>
      -- Mark as cancelled in memory
      some { s.goto p (.reading .local_cancel id) with
        cancelled := Function.update s.cancelled (D.instance_of p)
          (id :: s.cancelled (D.instance_of p)) }
    | _ => none
  | .cloud_cancel p id =>
    match s.processes p with
    | .idle => some (s.goto p (.reading .cloud_cancel id))
    | _ => none
  | .execute p id =>
    match s.processes p with
    | .idle => some (s.goto p (.reading .worker_start id))
    | _ => none
  | .get_execution p updated_at stamp =>
    match s.processes p with
    | .reading task id =>
      match s.executions.get_execution id (D.tenant_id p) with
      | .ok current =>
        match task.decide current updated_at stamp with
        | .ok (some updated) => some (s.goto p (.writing task id current updated))
        | .ok none => some (s.goto p .idle)
        | .error _ => some (s.goto p .idle)
      | .error _ => some (s.goto p .idle)
    | _ => none
  | .read_fails p _ =>
    match s.processes p with
    | .reading _ _ => some (s.goto p .idle)
    | _ => none
  | .update_execution p =>
    match s.processes p with
    | .writing task id _ updated =>
      match s.executions.update_execution updated (D.tenant_id p) with
      | .ok executions => some { s.goto p (task.next id) with executions := executions }
      | .error _ => some (s.goto p .idle)
    | _ => none
  | .write_fails p _ =>
    match s.processes p with
    | .writing _ _ _ _ => some (s.goto p .idle)
    | _ => none
  | .check_cancelled p =>
    match s.processes p with
    | .starting_workflow id =>
      some (s.goto p (if (s.cancelled (D.instance_of p)).contains id then
        .reading (.local_finish (.error was_cancelled)) id else .loading_workflow id))
    | .checking_cancelled id todo =>
      some (s.goto p (if (s.cancelled (D.instance_of p)).contains id then
        .reading (.local_finish (.error was_cancelled)) id else .executing_asset id todo))
    | _ => none
  | .load_workflow p assets =>
    match s.processes p with
    | .loading_workflow id =>
      match assets with
      | .ok todo => some (s.goto p (next_asset id todo))
      | .error e => some (s.goto p (.reading (.local_finish (.error e)) id))
    | _ => none
  | .execute_asset_python p result =>
    match s.processes p with
    | .executing_asset id todo =>
      match result with
      | .ok () => some (s.goto p (next_asset id (todo - 1)))
      | .error e => some (s.goto p (.reading (.local_finish (.error e)) id))
    | _ => none
  | .execute_workflow p result =>
    match s.processes p with
    | .executing_workflow id => some (s.goto p (.reading result.task id))
    | _ => none
  | .crash p => some (s.goto p .idle)

/-- Any executions, and nobody at work. -/
def system (D : Deployment) : System State Label where
  init := fun s => ∀ p, s.processes p = .idle
  next := next D

/-- A step of the system. -/
abbrev Event : Type := Step State Label

/-! ### Terminal states -/

/-- The states that are never left, `failed` not among them: it can be retried. -/
def is_final : ExecutionState → Bool
  | .succeeded | .cancelled | .timeout => true
  | _ => false

/-- The state of an execution. -/
def State.state? (s : State) (id : Uuid) : Option ExecutionState :=
  (s.executions.find? id).map (·.state)

/-- The execution is pending or running. -/
def State.is_active (s : State) (id : Uuid) : Bool :=
  s.state? id = some .pending || s.state? id = some .running

/-- The execution for which a step makes a cancellation return `Ok`, if it does. -/
def cancel_returns_ok? (D : Deployment) (st : Event) : Option Uuid :=
  match st.label with
  | .get_execution p updated_at stamp =>
    match st.pre.processes p with
    | .reading task id =>
      match task.is_cancel, st.pre.executions.get_execution id (D.tenant_id p) with
      | true, .ok current =>
        match task.decide current updated_at stamp with
        | .ok none => some id
        | _ => none
      | true, .error _ => if task.is_local_cancel then some id else none
      | false, _ => none
    | _ => none
  | .read_fails p _ =>
    match st.pre.processes p with
    | .reading task id => if task.is_local_cancel then some id else none
    | _ => none
  | .update_execution p =>
    match st.pre.processes p with
    | .writing task id _ updated =>
      match task.is_cancel, st.pre.executions.update_execution updated (D.tenant_id p) with
      | true, .ok _ => some id
      | _, _ => none
    | _ => none
  | _ => none

/-- What is in a final state stays in it, and what has been cancelled is cancelled. -/
def TerminalStays (D : Deployment) (tr : List Event) (s : State) : Prop :=
  (∀ st ∈ tr, ∀ id state, st.pre.state? id = some state → is_final state = true →
    s.state? id = some state) ∧
  ∀ st ∈ tr, ∀ id, cancel_returns_ok? D st = some id → st.pre.is_active id = true →
    s.state? id = some .cancelled

/-! ### What the programs do not check -/

/-- Writing the state of the task leaves no final state. -/
def Task.may_overwrite (task : Task) (state : ExecutionState) : Bool :=
  !is_final state || state = task.target

/-- While a call is between its read and its write, nobody else brings the execution into a
    final state that the call overwrites. -/
def uninterrupted (st : Event) : Bool :=
  match st.label with
  | .update_execution p =>
    match st.pre.processes p with
    | .writing task id current _ =>
      match st.pre.state? id with
      | some state => state = current.state || task.may_overwrite state
      | none => true
    | _ => true
  | _ => true

/-- A run of `LocalExecutor` does not read a final state that it overwrites, and a
    cancellation does not read `timeout`. -/
def reads_open (D : Deployment) (st : Event) : Bool :=
  match st.label with
  | .get_execution p _ _ =>
    match st.pre.processes p with
    | .reading task id =>
      match st.pre.executions.get_execution id (D.tenant_id p) with
      | .ok current =>
        (!task.is_local_run || task.may_overwrite current.state) &&
          (!task.is_cancel || current.state ≠ .timeout)
      | .error _ => true
    | _ => true
  | _ => true

/-- `LocalExecutor::cancel` can read an execution that is pending or running. -/
def cancel_reads (D : Deployment) (st : Event) : Bool :=
  match st.label with
  | .get_execution p _ _ =>
    match st.pre.processes p with
    | .reading task id =>
      match st.pre.executions.get_execution id (D.tenant_id p) with
      | .ok _ => true
      | .error _ => !task.is_local_cancel || !st.pre.is_active id
    | _ => true
  | .read_fails p _ =>
    match st.pre.processes p with
    | .reading task id => !task.is_local_cancel || !st.pre.is_active id
    | _ => true
  | _ => true

/-- The condition on a step. -/
def careful (D : Deployment) (st : Event) : Bool :=
  uninterrupted st && reads_open D st && cancel_reads D st

/-! ### What the programs check -/

variable {D : Deployment} {s s' : State} {l : Label}

theorem of_map_some {result : Except RuntimeError ExecutionModel} {updated : ExecutionModel}
    (h : result.map some = .ok (some updated)) : result = .ok updated := by
  cases result with
  | ok value => cases h; rfl
  | error e => cases h

section

variable {task : Task} {current updated : ExecutionModel} {updated_at stamp : DateTime}

theorem Task.decide_local_run (hrun : task.is_local_run = true)
    (h : task.decide current updated_at stamp = .ok (some updated)) :
    updated.id = current.id ∧ updated.state = task.target := by
  cases task with
  | local_start => cases h; exact ⟨rfl, rfl⟩
  | local_finish result =>
    rcases result with e | ⟨⟩
    · cases h; exact ⟨rfl, rfl⟩
    · cases h; exact ⟨rfl, rfl⟩
  | _ => cases hrun

/-- Of the final states, the cancellations overwrite the one they do not know. -/
theorem Task.decide_cancel (hcancel : task.is_cancel = true)
    (h : task.decide current updated_at stamp = .ok (some updated)) :
    updated.id = current.id ∧ updated.state = task.target ∧
      (is_final current.state = true → current.state = .timeout) := by
  cases task with
  | local_cancel =>
    simp only [Task.decide, Lifecycle.local_cancel] at h
    split at h
    · next hopen =>
      cases h
      refine ⟨rfl, rfl, fun hfinal => ?_⟩
      revert hopen hfinal
      cases current.state <;> decide
    · cases h
  | cloud_cancel =>
    simp only [Task.decide, Lifecycle.cloud_cancel] at h
    cases hstate : current.state <;> rw [hstate] at h <;> cases h
    · exact ⟨rfl, rfl, fun hfinal => by cases hfinal⟩
    · exact ⟨rfl, rfl, fun hfinal => by cases hfinal⟩
    · exact ⟨rfl, rfl, fun _ => rfl⟩
  | _ => cases hcancel

/-- The worker writes over the states it has asked for, none of which is final. -/
theorem Task.decide_worker (hrun : task.is_local_run = false) (hcancel : task.is_cancel = false)
    (h : task.decide current updated_at stamp = .ok (some updated)) :
    updated.id = current.id ∧ updated.state = task.target ∧ is_final current.state = false := by
  have htransition : ∀ {from_state to_state : ExecutionState},
      (transition_state from_state to_state current updated_at stamp).map some =
        .ok (some updated) → is_final from_state = false →
      updated.id = current.id ∧ updated.state = to_state ∧ is_final current.state = false := by
    intro from_state to_state hmap hopen
    obtain ⟨hread, hid, hstate⟩ := transition_state_eq_ok (of_map_some hmap)
    exact ⟨hid, hstate, by rw [hread]; exact hopen⟩
  have hfailure : ∀ {error : String},
      (record_failure error current updated_at stamp).map some = .ok (some updated) →
      updated.id = current.id ∧ updated.state = .failed ∧ is_final current.state = false := by
    intro error hmap
    obtain ⟨hallowed, hid, hstate⟩ := record_failure_eq_ok (of_map_some hmap)
    refine ⟨hid, hstate, ?_⟩
    revert hallowed
    cases current.state <;> decide
  cases task with
  | local_start => cases hrun
  | local_finish result => cases hrun
  | local_cancel => cases hcancel
  | cloud_cancel => cases hcancel
  | worker_start => exact htransition h rfl
  | worker_succeed => exact htransition h rfl
  | worker_timeout duration => exact htransition h rfl
  | worker_record_timeout duration => exact hfailure h
  | worker_fail e => exact hfailure h

/-- What is written is the state of the task, and only a run of `LocalExecutor` or a
    cancellation writes over a final state that it has read. -/
theorem Task.decide_eq_some (h : task.decide current updated_at stamp = .ok (some updated)) :
    updated.id = current.id ∧ updated.state = task.target ∧
      (is_final current.state = true →
        task.is_local_run = true ∨ task.is_cancel = true ∧ current.state = .timeout) := by
  by_cases hrun : task.is_local_run = true
  · obtain ⟨hid, hstate⟩ := Task.decide_local_run hrun h
    exact ⟨hid, hstate, fun _ => Or.inl hrun⟩
  · by_cases hcancel : task.is_cancel = true
    · obtain ⟨hid, hstate, hover⟩ := Task.decide_cancel hcancel h
      exact ⟨hid, hstate, fun hfinal => Or.inr ⟨hcancel, hover hfinal⟩⟩
    · rw [Bool.not_eq_true] at hrun hcancel
      obtain ⟨hid, hstate, hopen⟩ := Task.decide_worker hrun hcancel h
      refine ⟨hid, hstate, fun hfinal => ?_⟩
      rw [hopen] at hfinal
      cases hfinal

end

/-- Only a cancellation leaves an execution alone, and not one that is pending or running. -/
theorem Task.decide_eq_none {task : Task} {current : ExecutionModel}
    {updated_at stamp : DateTime} (h : task.decide current updated_at stamp = .ok none) :
    current.state ≠ .pending ∧ current.state ≠ .running := by
  have hworker : ∀ {result : Except RuntimeError ExecutionModel}, result.map some ≠ .ok none := by
    intro result hmap
    cases result <;> cases hmap
  cases task with
  | local_start => cases h
  | local_finish result => rcases result with e | ⟨⟩ <;> cases h
  | local_cancel =>
    simp only [Task.decide, Lifecycle.local_cancel] at h
    split at h
    · cases h
    · next hclosed =>
      revert hclosed
      cases current.state <;> decide
  | cloud_cancel =>
    simp only [Task.decide, Lifecycle.cloud_cancel] at h
    cases hstate : current.state <;> rw [hstate] at h <;> cases h <;> decide
  | worker_start => exact absurd h hworker
  | worker_succeed => exact absurd h hworker
  | worker_timeout duration => exact absurd h hworker
  | worker_record_timeout duration => exact absurd h hworker
  | worker_fail e => exact absurd h hworker

/-! ### Steps -/

theorem processes_goto (s : State) (p p' : ProcessId) (pc : Pc) :
    (s.goto p pc).processes p' = if p' = p then pc else s.processes p' :=
  Function.update_apply ..

def Pc.is_writing : Pc → Bool
  | .writing _ _ _ _ => true
  | _ => false

theorem Pc.reading_not_writing (task : Task) (id : Uuid) :
    (Pc.reading task id).is_writing = false := rfl

theorem Task.next_not_writing (task : Task) (id : Uuid) : (task.next id).is_writing = false := by
  cases task <;> rfl

theorem next_asset_not_writing (id : Uuid) (todo : Nat) :
    (next_asset id todo).is_writing = false := by
  cases todo <;> rfl

/-- What a step can do to the rows and to what is about to be written. -/
inductive Moved (D : Deployment) (s : State) : Label → State → Prop where
  /-- The rows that exist stay, and nobody else is about to write. -/
  | quiet {l : Label} {s' : State}
      (hrows : ∀ id row, s.executions.find? id = some row → s'.executions.find? id = some row)
      (hwriting : ∀ p task id current updated,
        s'.processes p = .writing task id current updated →
        s.processes p = .writing task id current updated) : Moved D s l s'
  | read {p : ProcessId} {task : Task} {id : Uuid} {current updated : ExecutionModel}
      {updated_at stamp : DateTime} (hpc : s.processes p = .reading task id)
      (hread : s.executions.get_execution id (D.tenant_id p) = .ok current)
      (hdecide : task.decide current updated_at stamp = .ok (some updated)) :
      Moved D s (.get_execution p updated_at stamp) (s.goto p (.writing task id current updated))
  | wrote {p : ProcessId} {task : Task} {id : Uuid} {current updated : ExecutionModel}
      {executions : Executions} (hpc : s.processes p = .writing task id current updated)
      (hok : s.executions.update_execution updated (D.tenant_id p) = .ok executions) :
      Moved D s (.update_execution p) { s.goto p (task.next id) with executions := executions }

/-- The rows that exist stay, and one process goes where it does not write. -/
theorem moved_goto {p : ProcessId} {pc : Pc} (hpc : pc.is_writing = false)
    (hrows : ∀ id row, s.executions.find? id = some row → s'.executions.find? id = some row)
    (hprocesses : s'.processes = (s.goto p pc).processes) : Moved D s l s' := by
  apply Moved.quiet hrows
  intro p' task id current updated hwriting
  rw [hprocesses, processes_goto] at hwriting
  split at hwriting
  · rw [hwriting] at hpc
    cases hpc
  · exact hwriting

/-- The same, when no row is written at all. -/
theorem moved_goto_same {p : ProcessId} {pc : Pc} (hpc : pc.is_writing = false) :
    Moved D s l (s.goto p pc) :=
  moved_goto hpc (fun _ _ hrow => hrow) rfl

theorem moved_same : Moved D s l s :=
  .quiet (fun _ _ hrow => hrow) (fun _ _ _ _ _ hwriting => hwriting)

/-- The creation of an execution leaves the rows that exist alone. -/
theorem find?_of_created {executions executions' : Executions} {model : ExecutionModel}
    {tenant_id : TenantId} {actual_execution_id : Uuid} {was_created : Bool}
    (hcreate : executions.create_execution_or_get_existing model tenant_id =
      .ok (executions', actual_execution_id, was_created))
    {id : Uuid} {row : ExecutionModel} (hrow : executions.find? id = some row) :
    executions'.find? id = some row := by
  rcases Executions.create_execution_eq_ok hcreate with ⟨-, -, hnone, hfind⟩ | ⟨-, heq⟩
  · have hne : id ≠ actual_execution_id := by
      intro heq
      rw [heq, hnone] at hrow
      cases hrow
    rw [hfind, if_neg hne]
    exact hrow
  · rw [heq]
    exact hrow

theorem moved_of_next (h : next D s l = some s') : Moved D s l s' := by
  cases l with
  | execute_with_idempotency p id workflow_id idempotency_key now =>
    simp only [next] at h
    split at h
    · split at h
      · next hcreate =>
        cases h
        exact moved_goto (Pc.reading_not_writing .local_start _)
          (fun _ _ hrow => find?_of_created hcreate hrow) rfl
      · next hcreate =>
        cases h
        exact .quiet (fun _ _ hrow => find?_of_created hcreate hrow)
          (fun _ _ _ _ _ hwriting => hwriting)
      · cases h
        exact moved_same
    · cases h
  | local_cancel p id =>
    simp only [next] at h
    split at h
    · cases h
      exact moved_goto rfl (fun _ _ hrow => hrow) rfl
    · cases h
  | cloud_cancel p id | execute p id =>
    simp only [next] at h
    split at h
    · cases h
      exact moved_goto_same rfl
    · cases h
  | get_execution p updated_at stamp =>
    simp only [next] at h
    split at h
    · next hpc =>
      split at h
      · next hread =>
        split at h
        · next hdecide =>
          cases h
          exact .read hpc hread hdecide
        · cases h
          exact moved_goto_same rfl
        · cases h
          exact moved_goto_same rfl
      · cases h
        exact moved_goto_same rfl
    · cases h
  | update_execution p =>
    simp only [next] at h
    split at h
    · next hpc =>
      split at h
      · next hok =>
        cases h
        exact .wrote hpc hok
      · cases h
        exact moved_goto_same rfl
    · cases h
  | read_fails p error | write_fails p error =>
    simp only [next] at h
    split at h
    · cases h
      exact moved_goto_same rfl
    · cases h
  | check_cancelled p =>
    -- whatever the flag says, the run does not come to a write
    simp only [next] at h
    split at h
    · cases h
      apply moved_goto_same
      split <;> rfl
    · cases h
      apply moved_goto_same
      split <;> rfl
    · cases h
  | load_workflow p result | execute_asset_python p result =>
    simp only [next] at h
    split at h
    · split at h
      · cases h
        exact moved_goto_same (next_asset_not_writing _ _)
      · cases h
        exact moved_goto_same rfl
    · cases h
  | execute_workflow p result =>
    simp only [next] at h
    split at h
    · cases h
      exact moved_goto_same rfl
    · cases h
  | crash p =>
    simp only [next] at h
    cases h
    exact moved_goto_same rfl

/-! ### What is about to be written -/

/-- A call that is about to write does not overwrite a final state that it has read. -/
def Prepared (s : State) : Prop :=
  ∀ p task id current updated, s.processes p = .writing task id current updated →
    updated.id = id ∧ updated.state = task.target ∧ task.may_overwrite current.state = true

theorem may_overwrite_iff (task : Task) (state : ExecutionState) :
    task.may_overwrite state = true ↔ (is_final state = true → state = task.target) := by
  unfold Task.may_overwrite
  rw [Bool.or_eq_true, Bool.not_eq_true', decide_eq_true_eq]
  cases is_final state <;> simp

/-- What a careful read finds. -/
theorem may_overwrite_of_read {p : ProcessId} {task : Task} {id : Uuid}
    {current updated : ExecutionModel} {updated_at stamp : DateTime}
    (hpc : s.processes p = .reading task id)
    (hread : s.executions.get_execution id (D.tenant_id p) = .ok current)
    (hdecide : task.decide current updated_at stamp = .ok (some updated))
    (hcareful : reads_open D ⟨s, .get_execution p updated_at stamp, s'⟩ = true) :
    task.may_overwrite current.state = true := by
  simp only [reads_open, hpc, hread, Bool.and_eq_true, Bool.or_eq_true, Bool.not_eq_true',
    decide_eq_true_eq] at hcareful
  obtain ⟨hrun, hcancel⟩ := hcareful
  rw [may_overwrite_iff]
  intro hfinal
  rcases (Task.decide_eq_some hdecide).2.2 hfinal with hlocal | ⟨hcancels, htimeout⟩
  · rcases hrun with hnot | hover
    · rw [hlocal] at hnot
      cases hnot
    · exact (may_overwrite_iff _ _).mp hover hfinal
  · rcases hcancel with hnot | hne
    · rw [hcancels] at hnot
      cases hnot
    · exact absurd htimeout hne

theorem prepared_step (hinv : Prepared s) (hcareful : reads_open D ⟨s, l, s'⟩ = true)
    (h : next D s l = some s') : Prepared s' := by
  cases moved_of_next h with
  | quiet _ hwriting =>
    intro p task id current updated hpc
    exact hinv p task id current updated (hwriting p task id current updated hpc)
  | @read p task id current updated updated_at stamp hpc hread hdecide =>
    intro p' task' id' current' updated' hpc'
    rw [processes_goto] at hpc'
    split at hpc'
    · cases hpc'
      obtain ⟨hid, hstate, -⟩ := Task.decide_eq_some hdecide
      have hcurrent : current.id = id :=
        Executions.id_of_find? (Executions.get_execution_eq_ok hread).1
      exact ⟨hid.trans hcurrent, hstate, may_overwrite_of_read hpc hread hdecide hcareful⟩
    · exact hinv p' task' id' current' updated' hpc'
  | @wrote p task id =>
    intro p' task' id' current' updated' hpc'
    change (s.goto p (task.next id)).processes p' = _ at hpc'
    rw [processes_goto] at hpc'
    split at hpc'
    · have hnot := task.next_not_writing id
      rw [hpc'] at hnot
      cases hnot
    · exact hinv p' task' id' current' updated' hpc'

/-! ### What a step does to the states -/

/-- A write puts its execution into the state of the task, and leaves the others alone. -/
theorem state?_of_wrote {p : ProcessId} {task : Task} {id : Uuid}
    {current updated : ExecutionModel} {executions : Executions} (hinv : Prepared s)
    (hpc : s.processes p = .writing task id current updated)
    (hok : s.executions.update_execution updated (D.tenant_id p) = .ok executions) (id' : Uuid) :
    (executions.find? id').map (·.state) = if id' = id then some task.target else s.state? id' := by
  obtain ⟨hid, hstate, -⟩ := hinv p task id current updated hpc
  obtain ⟨row, -, hfind⟩ := Executions.update_execution_eq_ok hok
  rw [hfind, hid]
  split
  · show some updated.state = some task.target
    rw [hstate]
  · rfl

/-- **Step lemma**: a careful step leaves the final states alone. -/
theorem final_step (hinv : Prepared s) (hcareful : uninterrupted ⟨s, l, s'⟩ = true)
    (h : next D s l = some s') {id : Uuid} {state : ExecutionState}
    (hstate : s.state? id = some state) (hfinal : is_final state = true) :
    s'.state? id = some state := by
  cases moved_of_next h with
  | quiet hrows =>
    obtain ⟨row, hrow, hrow_state⟩ := Option.map_eq_some_iff.mp hstate
    unfold State.state?
    rw [hrows id row hrow, Option.map_some, hrow_state]
  | read => exact hstate
  | @wrote p task id' current updated executions hpc hok =>
    show (executions.find? id).map (·.state) = some state
    rw [state?_of_wrote hinv hpc hok]
    by_cases hid : id = id'
    · subst hid
      rw [if_pos rfl]
      have hover : task.may_overwrite state = true := by
        simp only [uninterrupted, hpc, hstate, Bool.or_eq_true, decide_eq_true_eq] at hcareful
        rcases hcareful with hsame | hover
        · -- nobody has come between the read and the write
          rw [hsame]
          exact (hinv p task id current updated hpc).2.2
        · exact hover
      rw [(may_overwrite_iff _ _).mp hover hfinal]
    · rw [if_neg hid]
      exact hstate

/-- The three ways in which a cancellation returns `Ok`. -/
theorem cancel_returns_ok_cases {id : Uuid} (h : cancel_returns_ok? D ⟨s, l, s'⟩ = some id) :
    (∃ p task current updated_at stamp,
      s.executions.get_execution id (D.tenant_id p) = .ok current ∧
      Task.decide task current updated_at stamp = .ok none) ∨
    (cancel_reads D ⟨s, l, s'⟩ = true → s.is_active id = false) ∨
    ∃ p task current updated executions, l = .update_execution p ∧
      s.processes p = .writing task id current updated ∧ task.is_cancel = true ∧
      s.executions.update_execution updated (D.tenant_id p) = .ok executions := by
  cases l with
  | get_execution p updated_at stamp =>
    simp only [cancel_returns_ok?] at h
    split at h
    · next hpc =>
      split at h
      · next hread =>
        split at h
        · next hdecide =>
          cases h
          exact Or.inl ⟨_, _, _, _, _, hread, hdecide⟩
        · cases h
      · next hread =>
        split at h
        · next hlocal =>
          -- `LocalExecutor::cancel` finds no row that it may see
          cases h
          right; left
          intro hcareful
          simpa [cancel_reads, hpc, hread, hlocal] using hcareful
        · cases h
      · cases h
    · cases h
  | read_fails p error =>
    simp only [cancel_returns_ok?] at h
    split at h
    · next hpc =>
      split at h
      · next hlocal =>
        cases h
        right; left
        intro hcareful
        simpa [cancel_reads, hpc, hlocal] using hcareful
      · cases h
    · cases h
  | update_execution p =>
    simp only [cancel_returns_ok?] at h
    split at h
    · next hpc =>
      split at h
      · next hcancel hok =>
        cases h
        exact Or.inr (Or.inr ⟨_, _, _, _, _, rfl, hpc, hcancel, hok⟩)
      · cases h
    · cases h
  | _ => cases h

/-- **Step lemma**: a careful cancellation that returns `Ok` has cancelled the execution, if it
    was active. -/
theorem cancelled_of_returns_ok (hinv : Prepared s) (hcareful : cancel_reads D ⟨s, l, s'⟩ = true)
    (h : next D s l = some s') {id : Uuid} (hcancel : cancel_returns_ok? D ⟨s, l, s'⟩ = some id)
    (hactive : s.is_active id = true) : s'.state? id = some .cancelled := by
  rcases cancel_returns_ok_cases hcancel with
    ⟨p, task, current, updated_at, stamp, hread, hdecide⟩ | hinactive |
    ⟨p, task, current, updated, executions, hl, hpc, htask, hok⟩
  · -- what is left alone is neither pending nor running
    obtain ⟨hpending, hrunning⟩ := Task.decide_eq_none hdecide
    have hstate : s.state? id = some current.state := by
      unfold State.state?
      rw [(Executions.get_execution_eq_ok hread).1, Option.map_some]
    unfold State.is_active at hactive
    rw [hstate, Bool.or_eq_true, decide_eq_true_eq, decide_eq_true_eq] at hactive
    rcases hactive with heq | heq
    · exact absurd (Option.some.inj heq) hpending
    · exact absurd (Option.some.inj heq) hrunning
  · rw [hinactive hcareful] at hactive
    cases hactive
  · subst hl
    simp only [next, hpc, hok] at h
    cases h
    show (executions.find? id).map (·.state) = some .cancelled
    rw [state?_of_wrote hinv hpc hok, if_pos rfl]
    cases task <;> first | rfl | cases htask

/-! ### Runs -/

/-- **Terminal executions stay terminal**: in a run of careful steps, an execution that is
    `succeeded`, `cancelled` or `timeout` stays so, and an active one whose cancellation has
    returned `Ok` is cancelled. -/
theorem terminal_stays {tr : List Event} {s : State} (hrun : Run (system D) tr s)
    (hcareful : ∀ st ∈ tr, careful D st = true) : TerminalStays D tr s := by
  have hboth : Prepared s ∧ TerminalStays D tr s := by
    apply hrun.along_invariant (P := fun tr s => Prepared s ∧ TerminalStays D tr s)
      (C := fun _ st => careful D st = true)
    · intro s hinit
      refine ⟨fun p task id current updated hpc => ?_, fun st hst => ?_, fun st hst => ?_⟩
      · rw [hinit p] at hpc
        cases hpc
      · cases hst
      · cases hst
    · rintro tr s l s' - ⟨hinv, hfinals, hcancels⟩ hstep hnext
      unfold careful at hstep
      rw [Bool.and_eq_true, Bool.and_eq_true] at hstep
      obtain ⟨⟨hwrite, hread⟩, hcancel⟩ := hstep
      refine ⟨prepared_step hinv hread hnext, fun st hst id state hstate hfinal => ?_,
        fun st hst id hok hactive => ?_⟩
      · rcases List.mem_cons.mp hst with heq | hpast
        · subst heq
          exact final_step hinv hwrite hnext hstate hfinal
        · exact final_step hinv hwrite hnext (hfinals st hpast id state hstate hfinal) hfinal
      · rcases List.mem_cons.mp hst with heq | hpast
        · subst heq
          exact cancelled_of_returns_ok hinv hcancel hnext hok hactive
        · exact final_step hinv hwrite hnext (hcancels st hpast id hok hactive) rfl
    · exact (along_iff_forall _ _).mpr hcareful
  exact hboth.2

/-! ### Two processes -/

/-- One tenant, and one instance of `LocalExecutor`. -/
def one_tenant : Deployment where
  tenant_id := fun _ => "tenant"
  instance_of := fun _ => 0

/-- Execution `1`, just created. -/
def pending_execution : State where
  executions := ⟨[new_execution 1 2 "tenant" none 0], by decide, by decide⟩
  processes := fun _ => .idle
  cancelled := fun _ => []

/-- A call of a process, from its read to its write. -/
def read_and_write (p : ProcessId) (now : DateTime) : List Label :=
  [.get_execution p now now, .update_execution p]

/-- A worker loses execution `1` to a cancellation, which it finds out when it wants to mark
    success; a run of `LocalExecutor` succeeds, and a cancellation that comes later leaves
    it alone. -/
theorem terminal_stays_after_cancel :
    ∃ tr s, Run (system one_tenant) tr s ∧ s.state? 1 = some .cancelled ∧
      s.state? 3 = some .succeeded ∧ TerminalStays one_tenant tr s := by
  obtain ⟨tr, s, hrun, htest⟩ := (system one_tenant).exists_run_of_replay (s := pending_execution)
    (.execute 0 1 :: read_and_write 0 1 ++ .cloud_cancel 1 1 :: read_and_write 1 2 ++
      .execute_workflow 0 .succeeded :: .get_execution 0 3 3 ::
      .execute_with_idempotency 0 3 2 none 4 :: read_and_write 0 5 ++
      .check_cancelled 0 :: .load_workflow 0 (.ok 0) :: read_and_write 0 6 ++
      .local_cancel 1 3 :: .get_execution 1 7 7 :: [])
    (fun tr s => s.state? 1 = some .cancelled && s.state? 3 = some .succeeded &&
      tr.all (careful one_tenant)) (fun _ => rfl) (by decide +kernel)
  simp only [Bool.and_eq_true, decide_eq_true_eq, List.all_eq_true] at htest
  obtain ⟨⟨hcancelled, hsucceeded⟩, hcareful⟩ := htest
  exact ⟨tr, s, hrun, hcancelled, hsucceeded, terminal_stays hrun hcareful⟩

/-- A run of `LocalExecutor` that is cancelled before its first asset: the cancellation writes
    `cancelled`, and the run, which finds itself cancelled, writes `failed` over it. -/
theorem cancelled_run_ends_failed :
    ¬ ∀ (D : Deployment) (tr : List Event) (s : State), Run (system D) tr s →
      TerminalStays D tr s := by
  intro hall
  obtain ⟨tr, s, hrun, htest⟩ := (system one_tenant).exists_run_of_replay (s := pending_execution)
    (.execute_with_idempotency 0 3 2 none 1 :: read_and_write 0 2 ++
      .local_cancel 1 3 :: read_and_write 1 3 ++ .check_cancelled 0 :: read_and_write 0 4)
    (fun tr s => s.state? 3 = some .failed &&
      tr.any (fun st => st.pre.state? 3 = some .cancelled)) (fun _ => rfl) (by decide +kernel)
  simp only [Bool.and_eq_true, decide_eq_true_eq, List.any_eq_true] at htest
  obtain ⟨hfailed, st, hst, hcancelled⟩ := htest
  have hstays := (hall one_tenant tr s hrun).1 st hst 3 .cancelled hcancelled rfl
  rw [hfailed] at hstays
  cases hstays

end Servo.Lifecycle
