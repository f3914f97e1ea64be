import Servo.Core.TaskPayload
import Servo.Framework.System
import Servo.Storage.Executions
import Mathlib.Logic.Function.Basic

/-! # Starting an Execution

    `start_execution`, `start_execution_with_partition` and
    `CloudRunExecutor::execute_with_idempotency` do the same in two steps:
    they create a row for the execution, and then enqueue a task for it. The
    row is committed before the task is enqueued. A call that finds a row
    under its idempotency key returns that row at once.

    So a row without a task answers for its key: where an enqueue has failed,
    or is still to come, a call that repeats the key returns `Ok` for an
    execution that no task will run. A run without such a repetition keeps the
    promise.
-/

namespace Servo.StartExecution

open LTS

/-! ### Calls -/

inductive EntryPoint where
  /-- Of an orchestrator, which may have a task enqueuer. -/
  | start_execution (task_enqueuer : Bool)
  | start_execution_with_partition (task_enqueuer : Bool)
      (partition_context : PartitionExecutionContext)
  /-- Of `CloudRunExecutor`, which has a queue. -/
  | execute_with_idempotency
  deriving DecidableEq

structure Call where
  entry_point : EntryPoint
  workflow_id : Uuid
  tenant_id : TenantId
  idempotency_key : Option String
  deriving DecidableEq

def Call.task_enqueuer (call : Call) : Bool :=
  match call.entry_point with
  | .start_execution task_enqueuer => task_enqueuer
  | .start_execution_with_partition task_enqueuer _ => task_enqueuer
  | .execute_with_idempotency => true

/-- Whether the entry point reads the existing execution before it returns it. -/
def Call.reads_existing (call : Call) : Bool :=
  match call.entry_point with
  | .execute_with_idempotency => true
  | _ => false

/-- Tenant, workflow and idempotency key. -/
def Call.triple? (call : Call) : Option (TenantId × Uuid × String) :=
  call.idempotency_key.map fun key => (call.tenant_id, call.workflow_id, key)

/-- The row of the new execution. The orchestrator reads the clock twice. -/
def Call.execution (call : Call) (id : Uuid) (created_at updated_at : DateTime) :
    ExecutionModel where
  id := id
  workflow_id := call.workflow_id
  state := .pending
  tenant_id := some call.tenant_id
  idempotency_key := call.idempotency_key
  started_at := none
  completed_at := none
  error_message := none
  created_at := created_at
  updated_at := updated_at

/-- The row of the execution is created, or found: the table after it, the id, and whether the
    row is new. -/
def Call.create (call : Call) (executions : Executions) (execution : ExecutionModel) :
    Except StorageError (Executions × Uuid × Bool) :=
  if call.reads_existing || call.idempotency_key.isSome then
    -- Use atomic idempotent create for requests with idempotency keys
    executions.create_execution_or_get_existing execution call.tenant_id
  else
    -- No idempotency key - use regular create
    (executions.create_execution execution call.tenant_id).map (·, execution.id, true)

/-- The task that is enqueued. -/
def Call.task (call : Call) (execution_id : Uuid) : TaskPayload where
  execution_id := execution_id
  workflow_id := call.workflow_id
  tenant_id := call.tenant_id
  idempotency_key := call.idempotency_key
  -- worker must fetch workflow and compile plan
  execution_plan := []
  partition_context :=
    match call.entry_point with
    | .start_execution_with_partition _ partition_context => some partition_context
    | _ => none

/-! ### The system -/

/-- Where a caller stands: what it does next. -/
inductive Pc where
  | idle
  /-- `create_execution` or `create_execution_or_get_existing`. -/
  | creating (call : Call) (execution : ExecutionModel)
  /-- `enqueue`. -/
  | enqueueing (call : Call) (id : Uuid)
  /-- `get_execution` of the existing execution. -/
  | reading_existing (call : Call) (id : Uuid)

abbrev CallerId : Type := Nat

structure State where
  executions : Executions
  /-- The tasks that the queue has accepted. -/
  tasks : List TaskPayload
  callers : CallerId → Pc

inductive Label where
  | call (c : CallerId) (call : Call) (id : Uuid) (created_at updated_at : DateTime)
  | create (c : CallerId)
  /-- The row is committed, but the caller is told otherwise. -/
  | create_unacknowledged (c : CallerId)
  | enqueue (c : CallerId)
  /-- `enqueue` returns an error, for a task that may have been accepted all the same. -/
  | enqueue_fails (c : CallerId) (accepted : Bool)
  | get_execution (c : CallerId)
  /-- The pending step fails without effect, or the caller is gone. -/
  | fails (c : CallerId)

def State.goto (s : State) (c : CallerId) (pc : Pc) : State :=
  { s with callers := Function.update s.callers c pc }

/-- What follows the creation of the row; a call that returns leaves its caller idle. -/
def Call.next (call : Call) (id : Uuid) (was_created : Bool) : Pc :=
  if was_created then
    -- Enqueue task for execution if task enqueuer is configured
    if call.task_enqueuer then .enqueueing call id else .idle
  else
    -- Returning existing execution (idempotency hit)
    if call.reads_existing then .reading_existing call id else .idle

/-- One transaction, or one request to the queue. -/
def next (s : State) : Label → Option State
  | .call c call id created_at updated_at =>
    match s.callers c with
    | .idle => some (s.goto c (.creating call (call.execution id created_at updated_at)))
    | _ => none
  | .create c =>
    match s.callers c with
    | .creating call execution =>
      match call.create s.executions execution with
      | .ok (executions, id, was_created) =>
        some { s.goto c (call.next id was_created) with executions := executions }
      | .error _ => some (s.goto c .idle)
    | _ => none
  | .create_unacknowledged c =>
    match s.callers c with
    | .creating call execution =>
      match call.create s.executions execution with
      | .ok (executions, _, _) => some { s.goto c .idle with executions := executions }
      | .error _ => some (s.goto c .idle)
    | _ => none
  | .enqueue c =>
    match s.callers c with
    | .enqueueing call id => some { s.goto c .idle with tasks := call.task id :: s.tasks }
    | _ => none
  | .enqueue_fails c accepted =>
    match s.callers c with
    | .enqueueing call id =>
      some { s.goto c .idle with tasks := if accepted then call.task id :: s.tasks else s.tasks }
    | _ => none
  | .get_execution c =>
    match s.callers c with
    | .reading_existing _ _ => some (s.goto c .idle)
    | _ => none
  | .fails c =>
    match s.callers c with
    | .idle => none
    | _ => some (s.goto c .idle)

/-- The queue has accepted a task for the execution. -/
def State.enqueued (s : State) (id : Uuid) : Prop := ∃ task ∈ s.tasks, task.execution_id = id

instance (s : State) (id : Uuid) : Decidable (s.enqueued id) :=
  inferInstanceAs (Decidable (∃ task ∈ s.tasks, task.execution_id = id))

/-- Nobody at work, and a task for each execution that has a key. -/
def system : System State Label where
  init := fun s => (∀ id row, s.executions.find? id = some row →
    row.idempotency_key.isSome = true → s.enqueued id) ∧ ∀ c, s.callers c = .idle
  next := next

/-- A step of the system. -/
abbrev Event : Type := Step State Label

/-! ### What a call returns and leaves behind -/

/-- The call that creates or finds its row in a step, with the result. -/
def create? (st : Event) : Option (Call × Except StorageError (Executions × Uuid × Bool)) :=
  match st.label with
  | .create c | .create_unacknowledged c =>
    match st.pre.callers c with
    | .creating call execution => some (call, call.create st.pre.executions execution)
    | _ => none
  | _ => none

/-- The execution whose row is new in a step, and the call it is for. -/
def created? (st : Event) : Option (Call × Uuid) :=
  match create? st with
  | some (call, .ok (_, id, true)) => some (call, id)
  | _ => none

/-- The call that returns `Ok` in a step, and the execution it returns. -/
def returns_ok? (st : Event) : Option (Call × Uuid) :=
  match st.label with
  | .create _ =>
    match create? st with
    | some (call, .ok (_, id, was_created)) =>
      match call.next id was_created with
      | .idle => some (call, id)
      | _ => none
    | _ => none
  | .enqueue c =>
    match st.pre.callers c with
    | .enqueueing call id => some (call, id)
    | _ => none
  | .get_execution c =>
    match st.pre.callers c with
    | .reading_existing call id =>
      match st.pre.executions.get_execution id call.tenant_id with
      | .ok _ => some (call, id)
      | .error _ => none
    | _ => none
  | _ => none

/-- Whoever is told `Ok` where there is a queue has a task in it. -/
def OkMeansEnqueued (tr : List Event) : Prop :=
  ∀ st ∈ tr, ∀ call id, returns_ok? st = some (call, id) → call.task_enqueuer = true →
    st.post.enqueued id

/-- A call does not repeat the key of an earlier call that has created an execution for which
    the queue has accepted no task: its enqueue has failed, or has not been reached. -/
def no_stranded_key (past : List Event) (st : Event) : Prop :=
  ∀ call, (create? st).map (·.1) = some call → call.task_enqueuer = true →
    call.idempotency_key.isSome = true →
    ∀ st' ∈ past, ∀ call' id, created? st' = some (call', id) →
      call'.triple? = call.triple? → st.pre.enqueued id

/-! ### What a step can do -/

variable {s s' : State} {l : Label} {tr : List Event}

/-- The row of a call is new, or it is a row that answers for the key of the call. -/
theorem Call.create_eq_ok {call : Call} {executions executions' : Executions} {id id₀ : Uuid}
    {created_at updated_at : DateTime} {was_created : Bool}
    (h : call.create executions (call.execution id₀ created_at updated_at) =
      .ok (executions', id, was_created)) :
    (was_created = true ∧ ∀ id', executions'.find? id' =
      if id' = id then some (call.execution id₀ created_at updated_at)
      else executions.find? id') ∨
    was_created = false ∧ executions' = executions ∧ ∃ existing,
      executions.find? id = some existing ∧ existing.visible_to call.tenant_id = true ∧
        existing.workflow_id = call.workflow_id ∧
        existing.idempotency_key = call.idempotency_key ∧
        call.idempotency_key.isSome = true := by
  unfold Call.create at h
  split at h
  · cases was_created with
    | true =>
      rcases Executions.create_execution_eq_ok h with ⟨-, rfl, -, hfind⟩ | ⟨hfalse, -⟩
      · exact Or.inl ⟨rfl, hfind⟩
      · cases hfalse
    | false =>
      rcases Executions.create_execution_eq_ok h with ⟨htrue, -⟩ | ⟨-, hsame⟩
      · cases htrue
      · exact Or.inr ⟨rfl, hsame, Executions.existing_execution_eq_ok h⟩
  · cases hcreate : executions.create_execution (call.execution id₀ created_at updated_at)
        call.tenant_id with
    | error e =>
      rw [hcreate] at h
      cases h
    | ok inserted =>
      rw [hcreate] at h
      cases h
      exact Or.inl ⟨rfl, (Executions.insert_execution_eq_ok hcreate).2⟩

/-- A row is stored, an existing row is found, or only the queue changes. -/
inductive Moved (s : State) (l : Label) : State → Prop where
  | called {c : CallerId} {call : Call} {id : Uuid} {created_at updated_at : DateTime} :
      Moved s l (s.goto c (.creating call (call.execution id created_at updated_at)))
  | stored {c : CallerId} {call : Call} {execution : ExecutionModel} {id : Uuid}
      {executions : Executions} {pc : Pc} (hpc : s.callers c = .creating call execution)
      (hcreate : call.create s.executions execution = .ok (executions, id, true))
      (hcreated : ∀ s', created? ⟨s, l, s'⟩ = some (call, id))
      (hnext : pc = .idle ∨ pc = .enqueueing call id) :
      Moved s l { s.goto c pc with executions := executions }
  | hit {c : CallerId} {call : Call} {execution : ExecutionModel} {id : Uuid}
      {executions : Executions} {pc : Pc} (hpc : s.callers c = .creating call execution)
      (hcreate : call.create s.executions execution = .ok (executions, id, false))
      (hcall : ∀ s', create? ⟨s, l, s'⟩ = some (call, call.create s.executions execution))
      (hnext : pc = .idle ∨ pc = .reading_existing call id) :
      Moved s l { s.goto c pc with executions := executions }
  | returned {c : CallerId} {tasks : List TaskPayload} (hsub : ∀ task ∈ s.tasks, task ∈ tasks) :
      Moved s l { s.goto c .idle with tasks := tasks }

theorem moved_of_next (h : next s l = some s') : Moved s l s' := by
  unfold next at h
  split at h
  · -- a call begins
    split at h
    · cases h; exact .called
    · cases h
  · -- the row is created or found
    next c =>
    split at h
    · next call execution hpc =>
      split at h
      · next executions id was_created hcreate =>
        cases h
        cases was_created with
        | true =>
          refine .stored hpc hcreate (fun _ => by simp [created?, create?, hpc, hcreate]) ?_
          simp only [Call.next, if_true]
          split
          · exact Or.inr rfl
          · exact Or.inl rfl
        | false =>
          refine .hit hpc hcreate (fun _ => by simp [create?, hpc]) ?_
          simp only [Call.next, Bool.false_eq_true, if_false]
          split
          · exact Or.inr rfl
          · exact Or.inl rfl
      · cases h; exact .returned (fun _ h => h)
    · cases h
  · -- the same, unacknowledged
    next c =>
    split at h
    · next call execution hpc =>
      split at h
      · next executions id was_created hcreate =>
        cases h
        cases was_created with
        | true =>
          exact .stored hpc hcreate (fun _ => by simp [created?, create?, hpc, hcreate])
            (Or.inl rfl)
        | false => exact .hit hpc hcreate (fun _ => by simp [create?, hpc]) (Or.inl rfl)
      · cases h; exact .returned (fun _ h => h)
    · cases h
  · -- the task is enqueued
    split at h
    · cases h; exact .returned (fun _ h => List.mem_cons_of_mem _ h)
    · cases h
  · -- the task is enqueued, or not
    next c accepted =>
    split at h
    · cases h
      refine .returned fun task htask => ?_
      split
      · exact List.mem_cons_of_mem _ htask
      · exact htask
    · cases h
  · split at h
    · cases h; exact .returned (fun _ h => h)
    · cases h
  · split at h
    · cases h
    · cases h; exact .returned (fun _ h => h)

/-! ### Rows without a task -/

/-- Each execution with a key has a task, unless one of the calls so far has created it; and
    who reads an existing execution reads one that has a task. -/
structure Inv (tr : List Event) (s : State) : Prop where
  stored : ∀ id row, s.executions.find? id = some row → row.idempotency_key.isSome = true →
    s.enqueued id ∨ ∃ st ∈ tr, ∃ call, created? st = some (call, id) ∧
      row.tenant_id = some call.tenant_id ∧ row.workflow_id = call.workflow_id ∧
      row.idempotency_key = call.idempotency_key
  creating : ∀ c call execution, s.callers c = .creating call execution →
    ∃ id created_at updated_at, execution = call.execution id created_at updated_at
  reading : ∀ c call id, s.callers c = .reading_existing call id → call.task_enqueuer = true →
    s.enqueued id

theorem enqueued_of_subset {id : Uuid} (h : s.enqueued id)
    (hsub : ∀ task ∈ s.tasks, task ∈ s'.tasks) : s'.enqueued id := by
  obtain ⟨task, hmem, hid⟩ := h
  exact ⟨task, hsub task hmem, hid⟩

/-- An existing execution that a call finds has a task, where the keys of executions without
    one are not repeated. -/
theorem Inv.hit {call : Call} {execution : ExecutionModel} {executions : Executions} {id : Uuid}
    {c : CallerId} (hinv : Inv tr s) (hpc : s.callers c = .creating call execution)
    (hcreate : call.create s.executions execution = .ok (executions, id, false))
    (hcall : create? ⟨s, l, s'⟩ = some (call, call.create s.executions execution))
    (hcareful : no_stranded_key tr ⟨s, l, s'⟩) (hqueue : call.task_enqueuer = true) :
    s.enqueued id := by
  obtain ⟨id₀, created_at, updated_at, rfl⟩ := hinv.creating c call execution hpc
  rcases Call.create_eq_ok hcreate with ⟨htrue, -⟩ | ⟨-, -, row, hrow, hvisible, hwf, hkey, hsome⟩
  · cases htrue
  rcases hinv.stored id row hrow (by rw [hkey]; exact hsome) with henq | ⟨st, hst, call', hcreated,
    htenant, hwf', hkey'⟩
  · exact henq
  · refine hcareful call (by rw [hcall]; rfl) hqueue hsome st hst call' id hcreated ?_
    have howner : call'.tenant_id = call.tenant_id := by
      simp only [ExecutionModel.visible_to, htenant, reduceCtorEq, decide_false, Bool.false_or,
        Option.some.injEq, decide_eq_true_eq] at hvisible
      exact hvisible
    simp only [Call.triple?, howner, ← hwf', hwf, ← hkey', hkey]

/-- Only one caller moves. -/
theorem callers_goto {c c' : CallerId} {pc pc' : Pc}
    (h : Function.update s.callers c pc c' = pc') : (c' = c ∧ pc = pc') ∨ s.callers c' = pc' := by
  by_cases hc : c' = c
  · subst hc
    rw [Function.update_self] at h
    exact Or.inl ⟨rfl, h⟩
  · rw [Function.update_of_ne hc] at h
    exact Or.inr h

theorem inv_step (hinv : Inv tr s) (hcareful : no_stranded_key tr ⟨s, l, s'⟩)
    (h : next s l = some s') : Inv (⟨s, l, s'⟩ :: tr) s' := by
  -- what the history says of a row, it says from then on
  have hkept : ∀ id row, s.executions.find? id = some row → row.idempotency_key.isSome = true →
      s.enqueued id ∨ ∃ st ∈ (⟨s, l, s'⟩ :: tr : List Event), ∃ call,
        created? st = some (call, id) ∧ row.tenant_id = some call.tenant_id ∧
        row.workflow_id = call.workflow_id ∧ row.idempotency_key = call.idempotency_key := by
    intro id row hrow hsome
    refine (hinv.stored id row hrow hsome).imp_right ?_
    intro ⟨st, hst, hrest⟩
    exact ⟨st, List.mem_cons_of_mem _ hst, hrest⟩
  cases moved_of_next h with
  | @called c call id created_at updated_at =>
    refine ⟨hkept, fun c' call' execution' hpc' => ?_, fun c' call' id' hpc' => ?_⟩
    · rcases callers_goto hpc' with ⟨-, heq⟩ | hold
      · cases heq
        exact ⟨id, created_at, updated_at, rfl⟩
      · exact hinv.creating c' call' execution' hold
    · rcases callers_goto hpc' with ⟨-, heq⟩ | hold
      · cases heq
      · exact hinv.reading c' call' id' hold
  | @stored c call execution id executions pc hpc hcreate hcreated hnext =>
    have hpc_old : ∀ c' pc', Function.update s.callers c pc c' = pc' → pc' ≠ .idle →
        pc' ≠ .enqueueing call id → s.callers c' = pc' := by
      intro c' pc' hpc' hidle henq
      rcases callers_goto hpc' with ⟨-, rfl⟩ | hold
      · exact absurd hnext (not_or.mpr ⟨hidle, henq⟩)
      · exact hold
    refine ⟨fun id' row hrow hsome => ?_, fun c' call' execution' hpc' => ?_,
      fun c' call' id' hpc' => ?_⟩
    · obtain ⟨id₀, created_at, updated_at, rfl⟩ := hinv.creating c call execution hpc
      rcases Call.create_eq_ok hcreate with ⟨-, hfind⟩ | ⟨hfalse, -⟩
      · have hrow' := (hfind id').symm.trans hrow
        by_cases hid : id' = id
        · subst hid
          rw [if_pos rfl] at hrow'
          cases hrow'
          exact Or.inr ⟨_, List.mem_cons_self, call, hcreated _, rfl, rfl, rfl⟩
        · rw [if_neg hid] at hrow'
          exact hkept id' row hrow' hsome
      · cases hfalse
    · exact hinv.creating c' call' execution' (hpc_old c' _ hpc' (by simp) (by simp))
    · exact hinv.reading c' call' id' (hpc_old c' _ hpc' (by simp) (by simp))
  | @hit c call execution id executions pc hpc hcreate hcall hnext =>
    have hsame : executions = s.executions := by
      obtain ⟨id₀, created_at, updated_at, rfl⟩ := hinv.creating c call execution hpc
      rcases Call.create_eq_ok hcreate with ⟨htrue, -⟩ | ⟨-, hsame, -⟩
      · cases htrue
      · exact hsame
    subst hsame
    refine ⟨hkept, fun c' call' execution' hpc' => ?_, fun c' call' id' hpc' hqueue => ?_⟩
    · rcases callers_goto hpc' with ⟨-, rfl⟩ | hold
      · rcases hnext with hnext | hnext <;> cases hnext
      · exact hinv.creating c' call' execution' hold
    · rcases callers_goto hpc' with ⟨-, rfl⟩ | hold
      · rcases hnext with hnext | hnext <;> cases hnext
        exact hinv.hit hpc hcreate (hcall _) hcareful hqueue
      · exact hinv.reading c' call' id' hold hqueue
  | @returned c tasks hsub =>
    refine ⟨fun id row hrow hsome => ?_, fun c' call' execution' hpc' => ?_,
      fun c' call' id' hpc' hqueue => ?_⟩
    · exact (hkept id row hrow hsome).imp_left fun henq => enqueued_of_subset henq hsub
    · rcases callers_goto hpc' with ⟨-, heq⟩ | hold
      · cases heq
      · exact hinv.creating c' call' execution' hold
    · rcases callers_goto hpc' with ⟨-, heq⟩ | hold
      · cases heq
      · exact enqueued_of_subset (hinv.reading c' call' id' hold hqueue) hsub

/-! ### All runs -/

/-- What lets a call return `Ok`: its own task, an execution it has found, or the absence of a
    queue. -/
theorem returns_ok {call : Call} {id : Uuid} (h : next s l = some s')
    (hok : returns_ok? ⟨s, l, s'⟩ = some (call, id)) (hqueue : call.task_enqueuer = true) :
    call.task id ∈ s'.tasks ∨
    (s'.tasks = s.tasks ∧ ∃ c execution executions, s.callers c = .creating call execution ∧
      call.create s.executions execution = .ok (executions, id, false) ∧
      create? ⟨s, l, s'⟩ = some (call, call.create s.executions execution)) ∨
    s'.tasks = s.tasks ∧ ∃ c, s.callers c = .reading_existing call id := by
  cases l with
  | create c =>
    simp only [returns_ok?, create?, next] at hok h
    cases hpc : s.callers c with
    | creating call' execution =>
      simp only [hpc] at hok h
      split at hok
      · next call'' executions id' was_created hpair =>
        obtain ⟨rfl, hcreate⟩ := Prod.mk.inj (Option.some.inj hpair)
        rw [hcreate] at h
        cases h
        split at hok
        · next hnext =>
          cases hok
          cases was_created with
          | true => simp [Call.next, hqueue] at hnext
          | false =>
            exact Or.inr (Or.inl ⟨rfl, c, execution, executions, hpc, hcreate, by
              simp [create?, hpc]⟩)
        · cases hok
      · cases hok
    | idle => simp [hpc] at hok
    | enqueueing call' id' => simp [hpc] at hok
    | reading_existing call' id' => simp [hpc] at hok
  | enqueue c =>
    simp only [returns_ok?, next] at hok h
    split at hok
    · next hpc =>
      cases hok
      rw [hpc] at h
      cases h
      exact Or.inl List.mem_cons_self
    · cases hok
  | get_execution c =>
    simp only [returns_ok?, next] at hok h
    split at hok
    · next hpc =>
      rw [hpc] at h
      cases h
      split at hok
      · cases hok
        exact Or.inr (Or.inr ⟨rfl, c, hpc⟩)
      · cases hok
    · cases hok
  | call c call' id' created_at updated_at => cases hok
  | create_unacknowledged c => cases hok
  | enqueue_fails c accepted => cases hok
  | fails c => cases hok

/-- In the runs in which no key of an execution without a task is repeated, `Ok` means that
    there is a task. -/
theorem ok_means_enqueued (h : Run system tr s) (hcareful : Along no_stranded_key tr) :
    OkMeansEnqueued tr := by
  refine (h.along_invariant (P := fun tr s => Inv tr s ∧ OkMeansEnqueued tr) ?_ ?_ hcareful).2
  · intro s hinit
    obtain ⟨hrows, hidle⟩ := hinit
    refine ⟨⟨fun id row hrow hsome => Or.inl (hrows id row hrow hsome), ?_, ?_⟩, ?_⟩
    · intro c call execution hpc
      rw [hidle] at hpc
      cases hpc
    · intro c call id hpc
      rw [hidle] at hpc
      cases hpc
    · intro st hst
      cases hst
  · rintro tr s l s' - ⟨hinv, hold⟩ hstep hnext
    refine ⟨inv_step hinv hstep hnext, fun st hst call id hok hqueue => ?_⟩
    rcases List.mem_cons.mp hst with rfl | hst
    · rcases returns_ok hnext hok hqueue with htask | ⟨htasks, hhit⟩ | ⟨htasks, c, hpc⟩
      · exact ⟨_, htask, rfl⟩
      · obtain ⟨c, execution, executions, hpc, hcreate, hcall⟩ := hhit
        have henq := hinv.hit hpc hcreate hcall hstep hqueue
        exact enqueued_of_subset henq (by rw [htasks]; exact fun _ h => h)
      · exact enqueued_of_subset (hinv.reading c call id hpc hqueue)
          (by rw [htasks]; exact fun _ h => h)
    · exact hold st hst call id hok hqueue

/-! ### A client that retries -/

/-- Nothing has been started yet. -/
def nothing_started : State := ⟨Table.empty _ _, [], fun _ => .idle⟩

theorem init_nothing_started : system.init nothing_started :=
  ⟨by simp [nothing_started], fun _ => rfl⟩

/-- A start of workflow 7 under a key. -/
def keyed_start : Call := ⟨.start_execution true, 7, "tenant", some "key"⟩

/-- Caller `c` starts the workflow, and the row is created or found. -/
def start (c : CallerId) (id : Uuid) : List Label := [.call c keyed_start id 0 0, .create c]

/-- The creations of a run are enqueued before the next one of them. -/
def careful_test (past : List Event) (st : Event) : Bool :=
  (create? st).isNone ||
    past.all fun st' => (created? st').all fun created => st.pre.enqueued created.2

theorem no_stranded_key_of_test {past : List Event} {st : Event}
    (h : careful_test past st = true) : no_stranded_key past st := by
  intro call hcall _ _ st' hst' call' id hcreated _
  rw [careful_test, Bool.or_eq_true] at h
  rcases h with hnone | hall
  · rw [Option.isNone_iff_eq_none] at hnone
    rw [hnone] at hcall
    cases hcall
  · have hst := List.all_eq_true.mp hall st' hst'
    rw [hcreated] at hst
    exact of_decide_eq_true hst

/-- Whether the newest call of a run returns an execution that has a task. -/
def newest_enqueued (tr : List Event) : Option Bool :=
  tr.head?.bind fun st => (returns_ok? st).map fun returned => st.post.enqueued returned.2

/-- A retry after the execution has been enqueued. -/
theorem ok_means_enqueued_on_retry : ∃ tr s, Run system tr s ∧ newest_enqueued tr = some true ∧
    OkMeansEnqueued tr := by
  obtain ⟨tr, s, hrun, htest⟩ := system.exists_run_of_replay
    (start 0 1 ++ .enqueue 0 :: start 1 2)
    (fun tr _ => newest_enqueued tr = some true && along_test careful_test tr)
    init_nothing_started (by decide +kernel)
  rw [Bool.and_eq_true, decide_eq_true_eq] at htest
  have hcareful := (along_of_test htest.2).mono fun _ _ => no_stranded_key_of_test
  exact ⟨tr, s, hrun, htest.1, ok_means_enqueued hrun hcareful⟩

/-- The enqueue of the first call fails; its retry returns `Ok`, and no task exists. -/
theorem retry_after_failed_enqueue :
    ¬ ∀ (tr : List Event) (s : State), Run system tr s → OkMeansEnqueued tr := by
  intro hall
  obtain ⟨tr, s, hrun, htest⟩ := system.exists_run_of_replay
    (start 0 1 ++ .enqueue_fails 0 false :: start 0 2)
    (fun tr _ => last_step_test (fun st _ =>
      returns_ok? st = some (keyed_start, 1) && !decide (st.post.enqueued 1)) tr)
    init_nothing_started (by decide +kernel)
  obtain ⟨st, past, rfl, hlast⟩ := cons_of_last_step_test htest
  rw [Bool.and_eq_true, decide_eq_true_eq, Bool.not_eq_true', decide_eq_false_iff_not] at hlast
  exact hlast.2 (hall _ s hrun st List.mem_cons_self keyed_start 1 hlast.1 rfl)

end Servo.StartExecution
