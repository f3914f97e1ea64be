import Servo.Runtime.ExecutionLifecycle
import Servo.Runtime.StartExecution

/-! # Running a Workflow on a Worker

    A worker receives a task and executes the assets of its execution plan,
    one after the other, each with its data quality checks. The plan is part
    of the task. The orchestrator, which sends the task, expects the worker to
    compile the plan; `execute_scheduled`, which makes its task itself,
    expects `execute` to do so; and `execute` takes the plan as it is.

    So every task carries an empty plan, a worker executes nothing, and marks
    the execution as succeeded. The executions that have run their workflow are
    those of workflows without assets.
-/

namespace Servo.Worker

open LTS

/-! ### Data quality checks -/

/-- The values `valid_check_outcome` admits. -/
inductive CheckOutcome where
  | passed
  | failed
  | skipped
  | error
  deriving DecidableEq, Repr

/-- `CheckResultModel`, as far as `execute_workflow` reads it. -/
structure CheckResultModel where
  check_name : String
  outcome : CheckOutcome
  blocking : Bool
  error_message : Option String
  deriving DecidableEq

/-- The `Display` text of `ExecutionError::BlockingCheckFailure`. -/
def blocking_check_failure (asset_id : Uuid) (message : String) : String :=
  "Blocking check failed for asset " ++ asset_id.to_string ++ ": " ++ message

/-- Check for blocking failures. -/
def blocking_failure (asset_id : Uuid) (check_results : List CheckResultModel) : Option String :=
  (check_results.find? fun result => result.blocking && result.outcome = .failed).map fun result =>
    blocking_check_failure asset_id (result.error_message.getD "Check failed")

/-! ### Workers -/

/-- Where a worker stands. -/
inductive Pc where
  | idle
  /-- `execute_scheduled`: `get_workflow`. -/
  | validating (call : StartExecution.Call) (execution : ExecutionModel)
  /-- `execute_scheduled`: `start_execution`. -/
  | starting (call : StartExecution.Call) (execution : ExecutionModel)
  /-- `get_execution`, for a change of state. -/
  | reading (task : Lifecycle.Task) (payload : TaskPayload)
  /-- `update_execution`, after the row `current` has been read. -/
  | writing (task : Lifecycle.Task) (payload : TaskPayload) (current updated : ExecutionModel)
  /-- `execute_asset`; what is left of the plan after it. -/
  | executing_asset (payload : TaskPayload) (asset_id : Uuid) (todo : List Uuid)
  /-- `run_asset_checks`. -/
  | checking_asset (payload : TaskPayload) (asset_id : Uuid) (todo : List Uuid)

/-- `execute_workflow`, with this part of the plan still to do. -/
def execute_workflow (payload : TaskPayload) : List Uuid → Pc
  | [] => .reading .worker_succeed payload
  | asset_id :: todo => .executing_asset payload asset_id todo

/-- What follows a write of `execute`. -/
def next_task (task : Lifecycle.Task) (payload : TaskPayload) : Pc :=
  match task with
  | .worker_start => execute_workflow payload payload.execution_plan
  | .worker_timeout duration => .reading (.worker_record_timeout duration) payload
  | _ => .idle

/-- The call of `start_execution` in `execute_scheduled`: no task enqueuer, and no key. -/
def scheduled_call (workflow_id : Uuid) (tenant_id : TenantId) : StartExecution.Call :=
  ⟨.start_execution false, workflow_id, tenant_id, none⟩

/-- The task that `execute_scheduled` makes. -/
def scheduled_payload (call : StartExecution.Call) (execution_id : Uuid) : TaskPayload where
  execution_id := execution_id
  workflow_id := call.workflow_id
  tenant_id := call.tenant_id
  idempotency_key := none
  -- Executor will compile the workflow
  execution_plan := []
  partition_context := none

abbrev WorkerId : Type := Nat

structure State where
  /-- The executions, the queue, and the callers that start executions. -/
  starts : StartExecution.State
  workers : WorkerId → Pc
  /-- The assets that have been executed, each with its execution; the newest first. -/
  executed : List (Uuid × Uuid)

inductive Label where
  | starts (l : StartExecution.Label)
  | execute_scheduled (w : WorkerId) (workflow_id : Uuid) (tenant_id : TenantId) (id : Uuid)
      (created_at updated_at : DateTime)
  /-- The `schedule_enabled` column of the workflow. -/
  | get_workflow (w : WorkerId) (schedule_enabled : Option Bool)
  | start_execution (w : WorkerId)
  /-- A task is delivered; the queue may deliver it again. -/
  | execute (w : WorkerId) (payload : TaskPayload)
  | get_execution (w : WorkerId) (updated_at stamp : DateTime)
  | update_execution (w : WorkerId)
  | execute_asset (w : WorkerId) (result : Except String Unit)
  | run_asset_checks (w : WorkerId) (results : Except String (List CheckResultModel))
  /-- `execute_workflow` is cut short. -/
  | timeout (w : WorkerId) (duration : String)
  /-- A transaction fails without effect, or the worker is gone. -/
  | fails (w : WorkerId)

def State.goto (s : State) (w : WorkerId) (pc : Pc) : State :=
  { s with workers := Function.update s.workers w pc }

def State.with_executions (s : State) (executions : Executions) : State :=
  { s with starts := { s.starts with executions := executions } }

/-- One transaction, or the execution of one asset, or its checks. -/
def next (s : State) : Label → Option State
  | .starts l => (StartExecution.next s.starts l).map fun starts => { s with starts := starts }
  | .execute_scheduled w workflow_id tenant_id id created_at updated_at =>
    match s.workers w with
    | .idle =>
      let call := scheduled_call workflow_id tenant_id
      some (s.goto w (.validating call (call.execution id created_at updated_at)))
    | _ => none
  | .get_workflow w schedule_enabled =>
    match s.workers w with
    | .validating call execution =>
      -- Verify schedule is enabled
      some (s.goto w (if schedule_enabled.getD false then .starting call execution else .idle))
    | _ => none
  | .start_execution w =>
    match s.workers w with
    | .starting call execution =>
      match call.create s.starts.executions execution with
      | .ok (executions, id, _) =>
        some ((s.goto w (.reading .worker_start (scheduled_payload call id))).with_executions
          executions)
      | .error _ => some (s.goto w .idle)
    | _ => none
  | .execute w payload =>
    match s.workers w with
    | .idle =>
      if payload ∈ s.starts.tasks then some (s.goto w (.reading .worker_start payload)) else none
    | _ => none
  | .get_execution w updated_at stamp =>
    match s.workers w with
    | .reading task payload =>
      match s.starts.executions.get_execution payload.execution_id payload.tenant_id with
      | .ok current =>
        match task.decide current updated_at stamp with
        | .ok (some updated) => some (s.goto w (.writing task payload current updated))
        | .ok none => some (s.goto w .idle)
        | .error _ => some (s.goto w .idle)
      | .error _ => some (s.goto w .idle)
    | _ => none
  | .update_execution w =>
    match s.workers w with
    | .writing task payload _ updated =>
      match s.starts.executions.update_execution updated payload.tenant_id with
      | .ok executions => some ((s.goto w (next_task task payload)).with_executions executions)
      | .error _ => some (s.goto w .idle)
    | _ => none
  | .execute_asset w result =>
    match s.workers w with
    | .executing_asset payload asset_id todo =>
      match result with
      | .ok () =>
        some { s.goto w (.checking_asset payload asset_id todo) with
          executed := (payload.execution_id, asset_id) :: s.executed }
      | .error e => some (s.goto w (.reading (.worker_fail e) payload))
    | _ => none
  | .run_asset_checks w results =>
    match s.workers w with
    | .checking_asset payload asset_id todo =>
      match results with
      | .ok check_results =>
        match blocking_failure asset_id check_results with
        -- halting execution
        | some e => some (s.goto w (.reading (.worker_fail e) payload))
        | none => some (s.goto w (execute_workflow payload todo))
      | .error e => some (s.goto w (.reading (.worker_fail e) payload))
    | _ => none
  | .timeout w duration =>
    match s.workers w with
    | .executing_asset payload _ _ | .checking_asset payload _ _ =>
      some (s.goto w (.reading (.worker_timeout duration) payload))
    | _ => none
  | .fails w => some (s.goto w .idle)

/-- No execution yet, and nobody at work. -/
def system : System State Label where
  init := fun s => s.starts.executions = Table.empty _ _ ∧ s.starts.tasks = [] ∧
    (∀ c, s.starts.callers c = .idle) ∧ (∀ w, s.workers w = .idle) ∧ s.executed = []
  next := next

/-- A step of the system. -/
abbrev Event : Type := Step State Label

/-! ### Running a workflow -/

/-- A workflow: its assets, and what each of them depends on. -/
structure Workflow where
  assets : List Uuid
  upstream : Uuid → List Uuid

/-- The assets executed for an execution, the first one first. -/
def State.executed_for (s : State) (execution_id : Uuid) : List Uuid :=
  ((s.executed.filter (·.1 = execution_id)).map (·.2)).reverse

/-- Every asset of the workflow exactly once, after all assets of the workflow it depends on. -/
structure RanWorkflow (workflow : Workflow) (executed : List Uuid) : Prop where
  once : ∀ asset ∈ workflow.assets, executed.count asset = 1
  ordered : ∀ asset ∈ workflow.assets, ∀ dependency ∈ workflow.upstream asset,
    dependency ∈ workflow.assets →
      ∃ earlier later, executed = earlier ++ asset :: later ∧ dependency ∈ earlier

/-- The task a worker works on. -/
def Pc.payload? : Pc → Option TaskPayload
  | .reading _ payload | .writing _ payload _ _ | .executing_asset payload _ _
  | .checking_asset payload _ _ => some payload
  | _ => none

/-- The assets a worker still has to execute or to check. -/
def Pc.todo : Pc → List Uuid
  | .executing_asset _ asset_id todo | .checking_asset _ asset_id todo => asset_id :: todo
  | _ => []

/-! ### What a worker executes -/

variable {s s' : State} {l : Label} {tr : List Event}

@[simp] theorem payload?_execute_workflow (payload : TaskPayload) (todo : List Uuid) :
    (execute_workflow payload todo).payload? = some payload := by
  cases todo <;> rfl

@[simp] theorem todo_execute_workflow (payload : TaskPayload) (todo : List Uuid) :
    (execute_workflow payload todo).todo = todo := by
  cases todo <;> rfl

/-- Nobody has compiled a plan, and a worker executes nothing but its plan. -/
structure Inv (s : State) : Prop where
  tasks : ∀ task ∈ s.starts.tasks, task.execution_plan = []
  plans : ∀ w payload, (s.workers w).payload? = some payload → payload.execution_plan = []
  follows : ∀ w payload, (s.workers w).payload? = some payload →
    (s.workers w).todo ⊆ payload.execution_plan
  executed : s.executed = []

/-- A worker goes on with a task whose plan is empty. -/
theorem Inv.goto (hinv : Inv s) (w : WorkerId) {pc : Pc}
    (hpc : ∀ payload, pc.payload? = some payload →
      payload.execution_plan = [] ∧ pc.todo ⊆ payload.execution_plan) : Inv (s.goto w pc) := by
  refine ⟨hinv.tasks, fun w' payload hpayload => ?_, fun w' payload hpayload => ?_,
    hinv.executed⟩
  · by_cases hw : w' = w
    · subst hw
      exact (hpc payload (by simpa [State.goto] using hpayload)).1
    · exact hinv.plans w' payload (by simpa [State.goto, hw] using hpayload)
  · by_cases hw : w' = w
    · subst hw
      have hfollows := (hpc payload (by simpa [State.goto] using hpayload)).2
      simpa [State.goto] using hfollows
    · have hfollows := hinv.follows w' payload (by simpa [State.goto, hw] using hpayload)
      simpa [State.goto, hw] using hfollows

theorem Inv.with_executions (hinv : Inv s) (executions : Executions) :
    Inv (s.with_executions executions) :=
  ⟨hinv.tasks, hinv.plans, hinv.follows, hinv.executed⟩

/-- A worker that goes on with its own task, and has nothing to execute. -/
theorem Inv.continue (hinv : Inv s) {w : WorkerId} {payload : TaskPayload} {pc : Pc}
    (hold : (s.workers w).payload? = some payload) (hpayload : pc.payload? = some payload)
    (htodo : pc.todo ⊆ payload.execution_plan) : Inv (s.goto w pc) := by
  refine hinv.goto w fun payload' hpayload' => ?_
  obtain rfl : payload = payload' := Option.some.inj (hpayload.symm.trans hpayload')
  exact ⟨hinv.plans w payload hold, htodo⟩

/-- A worker that is done. -/
theorem Inv.rest (hinv : Inv s) (w : WorkerId) : Inv (s.goto w .idle) :=
  hinv.goto w (fun _ h => by cases h)

/-- The tasks of the orchestrator carry an empty plan. -/
theorem tasks_of_start {starts starts' : StartExecution.State} {l : StartExecution.Label}
    (h : StartExecution.next starts l = some starts') {task : TaskPayload}
    (hmem : task ∈ starts'.tasks) : task ∈ starts.tasks ∨ task.execution_plan = [] := by
  unfold StartExecution.next at h
  split at h
  · split at h <;> cases h
    exact Or.inl hmem
  · split at h
    · split at h <;> cases h <;> exact Or.inl hmem
    · cases h
  · split at h
    · split at h <;> cases h <;> exact Or.inl hmem
    · cases h
  · -- the task is enqueued
    split at h <;> cases h
    rcases List.mem_cons.mp hmem with rfl | hold
    · exact Or.inr rfl
    · exact Or.inl hold
  · -- the task is enqueued, or not
    split at h <;> cases h
    dsimp only at hmem
    split at hmem
    · rcases List.mem_cons.mp hmem with rfl | hold
      · exact Or.inr rfl
      · exact Or.inl hold
    · exact Or.inl hmem
  · split at h <;> cases h
    exact Or.inl hmem
  · split at h
    · cases h
    · cases h; exact Or.inl hmem

/-- No worker has an asset left to do. -/
theorem Inv.nothing_to_do (hinv : Inv s) {w : WorkerId} {payload : TaskPayload}
    (hpayload : (s.workers w).payload? = some payload) : (s.workers w).todo = [] := by
  have hfollows := hinv.follows w payload hpayload
  rw [hinv.plans w payload hpayload] at hfollows
  exact List.subset_nil.mp hfollows

theorem inv_step (hinv : Inv s) (h : next s l = some s') : Inv s' := by
  unfold next at h
  split at h
  · -- a caller starts an execution
    obtain ⟨starts, hstart, rfl⟩ := Option.map_eq_some_iff.mp h
    refine ⟨fun task htask => ?_, hinv.plans, hinv.follows, hinv.executed⟩
    exact (tasks_of_start hstart htask).elim (hinv.tasks task) id
  · -- `execute_scheduled`
    split at h <;> cases h
    exact hinv.goto _ (fun _ h => by cases h)
  · -- `get_workflow`
    split at h <;> cases h
    refine hinv.goto _ fun payload hpayload => ?_
    split at hpayload <;> cases hpayload
  · -- `start_execution`
    split at h
    · split at h
      · cases h
        refine (hinv.goto _ fun payload hpayload => ?_).with_executions _
        cases hpayload
        exact ⟨rfl, List.nil_subset _⟩
      · cases h; exact hinv.rest _
    · cases h
  · -- a task is delivered
    split at h
    · split at h
      · next htask =>
        cases h
        refine hinv.goto _ fun payload hpayload => ?_
        cases hpayload
        exact ⟨hinv.tasks _ htask, List.nil_subset _⟩
      · cases h
    · cases h
  · -- the execution is read
    split at h
    · next hpc =>
      split at h
      · split at h <;> cases h
        · exact hinv.continue (by rw [hpc]; rfl) rfl (List.nil_subset _)
        · exact hinv.rest _
        · exact hinv.rest _
      · cases h; exact hinv.rest _
    · cases h
  · -- the execution is written
    next w =>
    split at h
    · next task payload current updated hpc =>
      split at h
      · cases h
        refine Inv.with_executions ?_ _
        have hpayload : (s.workers w).payload? = some payload := by rw [hpc]; rfl
        cases task with
        | worker_start =>
          exact hinv.continue hpayload (payload?_execute_workflow _ _)
            (by rw [next_task, todo_execute_workflow]; exact fun _ h => h)
        | worker_timeout duration => exact hinv.continue hpayload rfl (List.nil_subset _)
        | _ => exact hinv.rest w
      · cases h; exact hinv.rest _
    · cases h
  · -- an asset is executed: it would have to be in the plan
    next w result =>
    split at h
    · next payload asset_id todo hpc =>
      have hnothing := @Inv.nothing_to_do s hinv w payload (by rw [hpc]; rfl)
      rw [hpc] at hnothing
      cases hnothing
    · cases h
  · -- and so would an asset that is checked
    next w results =>
    split at h
    · next payload asset_id todo hpc =>
      have hnothing := @Inv.nothing_to_do s hinv w payload (by rw [hpc]; rfl)
      rw [hpc] at hnothing
      cases hnothing
    · cases h
  · -- the timeout
    split at h
    · next hpc =>
      cases h
      exact hinv.continue (by rw [hpc]; rfl) rfl (List.nil_subset _)
    · next hpc =>
      cases h
      exact hinv.continue (by rw [hpc]; rfl) rfl (List.nil_subset _)
    · cases h
  · cases h; exact hinv.rest _

theorem inv_of_run (h : Run system tr s) : Inv s := by
  refine h.invariant (P := Inv) (fun s hinit => ?_) (fun _ _ _ hinv hs => inv_step hinv hs)
  obtain ⟨-, htasks, -, hidle, hexecuted⟩ := hinit
  refine ⟨?_, ?_, ?_, hexecuted⟩
  · rw [htasks]
    intro task htask
    cases htask
  · intro w payload hpayload
    rw [hidle] at hpayload
    cases hpayload
  · intro w payload hpayload
    rw [hidle] at hpayload
    cases hpayload

/-! ### Succeeded executions -/

/-- Where nothing has been executed, the workflow has run only if there was nothing to run. -/
theorem ranWorkflow_nil_iff (workflow : Workflow) :
    RanWorkflow workflow [] ↔ workflow.assets = [] := by
  constructor
  · intro hran
    rw [List.eq_nil_iff_forall_not_mem]
    intro asset hasset
    have honce := hran.once asset hasset
    simp at honce
  · intro hnone
    exact ⟨by simp [hnone], by simp [hnone]⟩

/-- An execution that has succeeded has run its workflow exactly if that has no assets. -/
theorem succeeded_ran_iff (workflows : Uuid → Workflow) (h : Run system tr s) :
    ∀ id row, s.starts.executions.find? id = some row → row.state = .succeeded →
      (RanWorkflow (workflows row.workflow_id) (s.executed_for id) ↔
        (workflows row.workflow_id).assets = []) := by
  intro id row _ _
  have hnothing : s.executed_for id = [] := by
    simp [State.executed_for, (inv_of_run h).executed]
  rw [hnothing, ranWorkflow_nil_iff]

/-! ### One task -/

def nothing_started : State := ⟨StartExecution.nothing_started, fun _ => .idle, []⟩

theorem init_nothing_started : system.init nothing_started :=
  ⟨rfl, rfl, fun _ => rfl, fun _ => rfl, rfl⟩

/-- Execution `1` of workflow `7` is started, enqueued and run by worker `0`. -/
def one_task : List Label :=
  (StartExecution.start 0 1).map .starts ++ [.starts (.enqueue 0),
    .execute 0 (StartExecution.keyed_start.task 1), .get_execution 0 1 1, .update_execution 0,
    .get_execution 0 2 2, .update_execution 0]

/-- The execution succeeds, and nothing has been executed for it. -/
def succeeded_test (_ : List Event) (s : State) : Bool :=
  (s.starts.executions.find? 1).any (fun row => row.state = .succeeded && row.workflow_id = 7) &&
    s.executed_for 1 = []

/-- Workflows whose assets, if they have any, are the given ones. -/
def all_with (assets : List Uuid) : Uuid → Workflow := fun _ => ⟨assets, fun _ => []⟩

theorem succeeded_run_of_one_task : ∃ tr s, Run system tr s ∧ ∃ row,
    s.starts.executions.find? 1 = some row ∧ row.state = .succeeded ∧ row.workflow_id = 7 ∧
      s.executed_for 1 = [] := by
  obtain ⟨tr, s, hrun, htest⟩ := system.exists_run_of_replay one_task succeeded_test
    init_nothing_started (by decide +kernel)
  rw [succeeded_test, Bool.and_eq_true, Option.any_eq_true, decide_eq_true_eq] at htest
  obtain ⟨⟨row, hrow, hstate⟩, hnothing⟩ := htest
  rw [Bool.and_eq_true, decide_eq_true_eq, decide_eq_true_eq] at hstate
  exact ⟨tr, s, hrun, row, hrow, hstate.1, hstate.2, hnothing⟩

/-- The execution of a workflow without assets. -/
theorem succeeded_ran_without_assets : ∃ tr s, Run system tr s ∧ ∃ row,
    s.starts.executions.find? 1 = some row ∧
      RanWorkflow (all_with [] row.workflow_id) (s.executed_for 1) := by
  obtain ⟨tr, s, hrun, row, hrow, hstate, -⟩ := succeeded_run_of_one_task
  exact ⟨tr, s, hrun, row, hrow,
    (succeeded_ran_iff (all_with []) hrun 1 row hrow hstate).mpr rfl⟩

/-- The execution of a workflow with one asset succeeds, and the asset is not executed. -/
theorem succeeded_without_running :
    ¬ ∀ (workflows : Uuid → Workflow) (tr : List Event) (s : State), Run system tr s →
      ∀ id row, s.starts.executions.find? id = some row → row.state = .succeeded →
        RanWorkflow (workflows row.workflow_id) (s.executed_for id) := by
  intro hall
  obtain ⟨tr, s, hrun, row, hrow, hstate, -, hnothing⟩ := succeeded_run_of_one_task
  have hran := hall (all_with [9]) tr s hrun 1 row hrow hstate
  rw [hnothing, ranWorkflow_nil_iff] at hran
  cases hran

end Servo.Worker
