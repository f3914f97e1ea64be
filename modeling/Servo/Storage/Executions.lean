import Servo.Storage.Models

/-! # Executions

    Rows of `executions` after migrations 001 to 004, and the operations of
    the storage layer through which an execution lives: it is created once,
    and then read and written back as a whole by whoever has something to say
    about it. `update_execution` is an unconditional UPDATE: it looks
    neither at the state of the row nor at when its caller has read it.

    The state column ranges over the values its CHECK constraint admits, so
    that `validate_execution_state` has nothing to refuse here. The CHECK
    constraints on the timestamps are tested when a row is written.
-/

namespace Servo

/-! ### Rows -/

/-- `ExecutionState`, the values `executions_state_check` admits. -/
inductive ExecutionState where
  | pending
  | running
  | succeeded
  | failed
  | cancelled
  | timeout
  deriving DecidableEq, Repr

/-- The `Debug` text of a state. -/
def ExecutionState.debug : ExecutionState → String
  | .pending => "Pending"
  | .running => "Running"
  | .succeeded => "Succeeded"
  | .failed => "Failed"
  | .cancelled => "Cancelled"
  | .timeout => "Timeout"

/-- `ExecutionModel`, a row of `executions`. -/
structure ExecutionModel where
  id : Uuid
  workflow_id : Uuid
  state : ExecutionState
  tenant_id : Option TenantId
  idempotency_key : Option String
  started_at : Option DateTime
  completed_at : Option DateTime
  error_message : Option String
  created_at : DateTime
  updated_at : DateTime
  deriving DecidableEq

namespace ExecutionModel

/-- The unique index on tenant, workflow and idempotency key, where the key is not NULL;
    a NULL tenant differs from every other. -/
def unique_key (execution : ExecutionModel) : (TenantId × Uuid × String) ⊕ Uuid :=
  match execution.tenant_id, execution.idempotency_key with
  | some tenant_id, some key => .inl (tenant_id, execution.workflow_id, key)
  | _, _ => .inr execution.id

/-- Row-level security shows the rows of the tenant and those without one. -/
def visible_to (execution : ExecutionModel) (tenant_id : TenantId) : Bool :=
  execution.tenant_id = none || execution.tenant_id = some tenant_id

/-- The CHECK constraint that the row violates, in the order of their names. -/
def check_violation (execution : ExecutionModel) : Option String :=
  if (execution.started_at.any fun started =>
      execution.completed_at.any fun completed => completed < started) then
    some "executions_completed_after_started"
  else if (execution.idempotency_key.any fun key => key.length < 1 || 512 < key.length) then
    some "executions_idempotency_key_length"
  else if execution.updated_at < execution.created_at then
    some "executions_updated_after_created"
  else none

/-- SET clause of `update_execution`: the columns of the caller's copy. -/
def updatedTo (row execution : ExecutionModel) : ExecutionModel :=
  { row with
    state := execution.state
    started_at := execution.started_at
    completed_at := execution.completed_at
    error_message := execution.error_message
    updated_at := execution.updated_at }

end ExecutionModel

/-- `executions`: primary key `id` and the unique index. -/
abbrev Executions : Type := Table ExecutionModel.id ExecutionModel.unique_key

namespace Executions

/-! ### Operations -/

/-- The error of a write that a CHECK constraint rejects. -/
def constraint_violation (constraint : String) : StorageError :=
  .ValidationError ("Constraint violation: new row for relation \"executions\" violates " ++
    "check constraint \"" ++ constraint ++ "\"")

/-- `create_execution_or_get_existing`: the id of the execution, and whether it has been
    created. -/
def create_execution_or_get_existing (executions : Executions) (execution : ExecutionModel)
    (tenant_id : TenantId) : Except StorageError (Executions × Uuid × Bool) :=
  -- The row is inserted under the caller's tenant
  let row := { execution with tenant_id := some tenant_id }
  match row.check_violation with
  | some constraint => .error (constraint_violation constraint)
  | none =>
    if row.idempotency_key.isSome && executions.rows.any (·.unique_key = row.unique_key) then
      -- Conflict occurred, fetch the existing execution
      match executions.rows.find? (fun existing => existing.visible_to tenant_id &&
          existing.workflow_id = row.workflow_id &&
          existing.idempotency_key = row.idempotency_key) with
      | some existing => .ok (executions, existing.id, false)
      | none => .error (.Database
          "no rows returned by a query that expected to return at least one row")
    else
      match executions.insert? row with
      | some executions' => .ok (executions', row.id, true)
      | none => .error (.AlreadyExists
          "duplicate key value violates unique constraint \"executions_pkey\"")

/-- `create_execution`. -/
def create_execution (executions : Executions) (execution : ExecutionModel)
    (tenant_id : TenantId) : Except StorageError Executions :=
  let row := { execution with tenant_id := some tenant_id }
  match row.check_violation with
  | some constraint => .error (constraint_violation constraint)
  | none =>
    match executions.insert? row with
    | some executions' => .ok executions'
    | none =>
      let constraint :=
        if executions.rows.any (·.id = row.id) then "executions_pkey"
        else "executions_tenant_workflow_idempotency_key"
      .error (.AlreadyExists
        ("duplicate key value violates unique constraint \"" ++ constraint ++ "\""))

/-- `get_execution`. -/
def get_execution (executions : Executions) (id : Uuid) (tenant_id : TenantId) :
    Except StorageError ExecutionModel :=
  match (executions.find? id).filter (·.visible_to tenant_id) with
  | some execution => .ok execution
  | none => .error (.NotFound ("Execution " ++ id.to_string))

/-- `update_execution`. -/
def update_execution (executions : Executions) (execution : ExecutionModel)
    (tenant_id : TenantId) : Except StorageError Executions :=
  match (executions.find? execution.id).filter (·.visible_to tenant_id) with
  | some row =>
    match (row.updatedTo execution).check_violation with
    | some constraint => .error (constraint_violation constraint)
    | none =>
      .ok (executions.modify (fun row => row.id = execution.id) (·.updatedTo execution)
        (fun _ => ⟨rfl, rfl⟩))
  | none => .error (.NotFound ("Execution " ++ execution.id.to_string))

/-! ### What they do -/

variable {executions executions' : Executions} {id : Uuid} {tenant_id : TenantId}
  {execution : ExecutionModel}

theorem id_of_find? (h : executions.find? id = some execution) : execution.id = id :=
  Table.key_of_find? h

theorem get_execution_eq_ok (h : executions.get_execution id tenant_id = .ok execution) :
    executions.find? id = some execution ∧ execution.visible_to tenant_id = true := by
  unfold get_execution at h
  split at h
  · next hfound =>
    cases h
    exact Option.filter_eq_some_iff.mp hfound
  · cases h

/-- An update that succeeds replaces the row of its execution, and no other. -/
theorem update_execution_eq_ok (h : executions.update_execution execution tenant_id =
    .ok executions') :
    ∃ row, executions.find? execution.id = some row ∧
      ∀ id, executions'.find? id =
        if id = execution.id then some (row.updatedTo execution) else executions.find? id := by
  unfold update_execution at h
  split at h
  · next row hfound =>
    split at h
    · cases h
    · cases h
      have hrow := (Option.filter_eq_some_iff.mp hfound).1
      refine ⟨row, hrow, fun id => ?_⟩
      rw [Table.find?_modify]
      by_cases hid : id = execution.id
      · subst hid
        rw [if_pos rfl, hrow, Option.map_some]
        have hrow_id : row.id = execution.id := id_of_find? hrow
        simp [hrow_id]
      · rw [if_neg hid]
        cases hother : executions.find? id with
        | none => rfl
        | some other =>
          have hne : other.id ≠ execution.id := by rw [id_of_find? hother]; exact hid
          simp [hne]
  · cases h

/-- Creating an execution adds a row under an id that had none, or nothing at all. -/
theorem create_execution_eq_ok {created : Bool}
    (h : executions.create_execution_or_get_existing execution tenant_id =
      .ok (executions', id, created)) :
    (created = true ∧ id = execution.id ∧ executions.find? id = none ∧
      ∀ id', executions'.find? id' =
        if id' = id then some { execution with tenant_id := some tenant_id }
        else executions.find? id') ∨
      created = false ∧ executions' = executions := by
  unfold create_execution_or_get_existing at h
  simp only at h
  split at h
  · cases h
  · split at h
    · split at h
      · cases h
        exact Or.inr ⟨rfl, rfl⟩
      · cases h
    · split at h
      · next hins =>
        cases h
        have hfresh := Table.find?_of_insert? hins
        have hfind := Table.find?_insert? hins
        exact Or.inl ⟨rfl, rfl, hfresh, hfind⟩
      · cases h

/-- What is returned instead of a new execution is visible, and has the caller's key. -/
theorem existing_execution_eq_ok
    (h : executions.create_execution_or_get_existing execution tenant_id =
      .ok (executions', id, false)) :
    ∃ existing, executions.find? id = some existing ∧ existing.visible_to tenant_id = true ∧
      existing.workflow_id = execution.workflow_id ∧
      existing.idempotency_key = execution.idempotency_key ∧
      execution.idempotency_key.isSome = true := by
  unfold create_execution_or_get_existing at h
  simp only at h
  split at h
  · cases h
  · split at h
    · next hconflict =>
      split at h
      · next existing hfound =>
        cases h
        have htest := List.find?_some hfound
        simp only [Bool.and_eq_true, decide_eq_true_eq] at htest hconflict
        exact ⟨existing, Table.find?_key (List.mem_of_find?_eq_some hfound), htest.1.1, htest.1.2,
          htest.2, hconflict.1⟩
      · cases h
    · split at h <;> cases h

/-- The INSERT alone adds a row under an id that had none. -/
theorem insert_execution_eq_ok (h : executions.create_execution execution tenant_id =
    .ok executions') :
    executions.find? execution.id = none ∧
      ∀ id, executions'.find? id =
        if id = execution.id then some { execution with tenant_id := some tenant_id }
        else executions.find? id := by
  unfold create_execution at h
  simp only at h
  split at h
  · cases h
  · split at h
    · next hins =>
      cases h
      have hfresh := Table.find?_of_insert? hins
      have hfind := Table.find?_insert? hins
      exact ⟨hfresh, hfind⟩
    · cases h

end Executions

end Servo
