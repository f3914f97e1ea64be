import Servo.Framework.Procedures
import Servo.Worker.WorkflowExecutor

/-! # The Outcome of an Execution

    `execute` of a worker as one program: the execution is started, its
    workflow runs against the timeout, and what comes of it is written to the
    row. Each write is a state change of the orchestrator, which asks the table
    of transitions whether it is legal from the state the row is in.

    * A success and a failure are one change each, out of `running`.
    * A timeout is two: the row goes to `timeout`, and then the failure is to be
      recorded. But nothing leads from `timeout` to `failed`, so the second is
      always refused: the error message is not stored, and `execute` returns an
      error.

    Where no storage call fails, the outcome is recorded exactly if the workflow
    has not timed out.
-/

namespace Servo.Worker.Outcome

open Procedure

/-! ### Errors -/

/-- `servo_worker::executor::ExecutionError`. -/
inductive ExecutionError where
  | StateTransition (message : String)
  /-- The timeout, by its `Debug` text. -/
  | Timeout (duration : String)
  | Storage (message : String)
  | BlockingCheckFailure (asset_id : Uuid) (check_name message : String)
  | Internal (message : String)
  deriving DecidableEq

/-- The `Display` text of an error. -/
def ExecutionError.to_string : ExecutionError → String
  | .StateTransition m => "State transition failed: " ++ m
  | .Timeout duration => "Execution timeout after " ++ duration
  | .Storage m => "Storage error: " ++ m
  | .BlockingCheckFailure asset_id _ m => blocking_check_failure asset_id m
  | .Internal m => "Internal error: " ++ m

/-- `map_storage_error`. -/
def map_storage_error (context : String) : StorageError → RuntimeError
  | .NotFound msg => .NotFound msg
  | .ValidationError msg | .AlreadyExists msg => .Execution msg
  | .Database msg => .Internal (context ++ ": " ++ (StorageError.Database msg).to_string)

/-! ### State changes -/

/-- The database, and the errors that calls to it have returned, the newest first. -/
structure World where
  database : Remote Executions
  errors : List StorageError

section changes

-- The calls that fail though nothing is wrong with them
variable (faults : Nat → Option (Fault StorageError))

/-- A storage call. -/
def storage {α : Type} (op : Executions → Except StorageError (α × Executions)) :
    Procedure World StorageError α := fun w =>
  match Procedure.call faults (atomic op) w.database with
  | (.ok a, database) => (.ok a, ⟨database, w.errors⟩)
  | (.error e, database) => (.error e, ⟨database, e :: w.errors⟩)

def get_execution (execution_id : Uuid) (tenant_id : TenantId) (executions : Executions) :
    Except StorageError (ExecutionModel × Executions) :=
  (executions.get_execution execution_id tenant_id).map fun current => (current, executions)

def update_execution (updated : ExecutionModel) (tenant_id : TenantId) (executions : Executions) :
    Except StorageError (Unit × Executions) :=
  (executions.update_execution updated tenant_id).map fun executions => ((), executions)

/-- What `transition_state` and `record_failure` have in common: the execution is read, the new
    row is decided on, and written back. -/
def change (request : Orchestrator.Request) (context : String) (execution_id : Uuid)
    (tenant_id : TenantId) (now : DateTime × DateTime) : Procedure World RuntimeError Unit := do
  lift request.validate
  let current ← map_error (map_storage_error "Failed to get execution")
    (storage faults (get_execution execution_id tenant_id))
  let updated ← lift (request.decide current now.1 now.2)
  map_error (map_storage_error context) (storage faults (update_execution updated tenant_id))

/-- `ExecutionOrchestrator::transition_state`. -/
def transition_state (execution_id : Uuid) (from_state to_state : ExecutionState)
    (tenant_id : TenantId) (now : DateTime × DateTime) : Procedure World RuntimeError Unit :=
  change faults (.transition_state from_state to_state) "Failed to update execution" execution_id
    tenant_id now

/-- `ExecutionOrchestrator::record_failure`. -/
def record_failure (execution_id : Uuid) (error : String) (tenant_id : TenantId)
    (now : DateTime × DateTime) : Procedure World RuntimeError Unit :=
  change faults (.record_failure error) "Failed to record failure" execution_id tenant_id now

/-! ### The program -/

/-- The error of a state change that has failed. -/
def state_transition (context : String) (e : RuntimeError) : ExecutionError :=
  .StateTransition (context ++ ": " ++ e.to_string)

/-- The workflow against the timeout: its result if it is done first. -/
def select (timeout : String) : Option (Except ExecutionError Unit) → Except ExecutionError Unit
  | some result => result
  | none => .error (.Timeout timeout)

/-- Handle result and transition to final state. -/
def finish (now : Nat → DateTime × DateTime) (payload : TaskPayload) :
    Except ExecutionError Unit → Procedure World ExecutionError Unit
  | .ok () =>
    map_error (state_transition "Failed to mark success")
      (transition_state faults payload.execution_id .running .succeeded payload.tenant_id (now 1))
  | .error (.Timeout duration) => do
    map_error (state_transition "Failed to mark timeout")
      (transition_state faults payload.execution_id .running .timeout payload.tenant_id (now 1))
    map_error (state_transition "Failed to record timeout")
      (record_failure faults payload.execution_id ("Execution timeout after " ++ duration)
        payload.tenant_id (now 2))
  | .error e =>
    map_error (state_transition "Failed to record failure")
      (record_failure faults payload.execution_id e.to_string payload.tenant_id (now 1))

/-- `WorkflowExecutor::execute`. The clock is read twice for each change, and `finished` is what
    `execute_workflow` returns, if it does so within the timeout. -/
def execute (timeout : String) (now : Nat → DateTime × DateTime) (payload : TaskPayload)
    (finished : Option (Except ExecutionError Unit)) : Procedure World ExecutionError Unit := do
  map_error (state_transition "Failed to start")
    (transition_state faults payload.execution_id .pending .running payload.tenant_id (now 0))
  finish faults now payload (select timeout finished)

end changes

/-- The final state for a result. -/
def final_state : Except ExecutionError Unit → ExecutionState
  | .ok () => .succeeded
  | .error (.Timeout _) => .timeout
  | .error _ => .failed

/-- `execute` returns `Ok`, the row is in the state of the result, and anything but a success has
    an error message. -/
def Recorded (id : Uuid) (result : Except ExecutionError Unit)
    (outcome : Except ExecutionError Unit × World) : Prop :=
  outcome.1 = .ok () ∧ ∃ row, outcome.2.database.state.find? id = some row ∧
    row.state = final_state result ∧ (result ≠ .ok () → row.error_message ≠ none)

/-! ### A state change without storage errors -/

section

variable {faults : Nat → Option (Fault StorageError)} {w : World} {row : ExecutionModel}
  {id : Uuid} {tenant_id : TenantId}

/-- A storage call that returns an error leaves a trace. -/
theorem storage_cases {α : Type} (op : Executions → Except StorageError (α × Executions)) :
    (∃ e w', storage faults op w = (.error e, w') ∧ w'.errors ≠ []) ∨
      ∃ a w', storage faults op w = (.ok a, w') ∧ w'.errors = w.errors ∧
        op w.database.state = .ok (a, w'.database.state) := by
  unfold storage
  cases hcall : Procedure.call faults (atomic op) w.database with
  | mk res database =>
    cases res with
    | error e => exact .inl ⟨e, _, rfl, List.cons_ne_nil _ _⟩
    | ok a =>
      have hdone := (call_eq_ok_iff.mp hcall).2.1
      exact .inr ⟨a, _, rfl, rfl, atomic_eq_ok_iff.mp hdone⟩

/-- The tenant sees this row of the execution. -/
def Stands (w : World) (id : Uuid) (tenant_id : TenantId) (row : ExecutionModel) : Prop :=
  w.database.state.find? id = some row ∧ row.visible_to tenant_id = true

/-- What a state change can end with, on this row; `f` is what becomes of its errors. -/
inductive Changed (f : RuntimeError → ExecutionError) (request : Orchestrator.Request) (id : Uuid)
    (tenant_id : TenantId) (now : DateTime × DateTime) (w : World) (row : ExecutionModel) :
    Except ExecutionError Unit × World → Prop where
  | storage_failed {e : ExecutionError} {w' : World} (herrors : w'.errors ≠ []) :
      Changed f request id tenant_id now w row (.error e, w')
  | refused {e : RuntimeError} {w' : World} (hdecide : request.decide row now.1 now.2 = .error e)
      (hstands : Stands w' id tenant_id row) :
      Changed f request id tenant_id now w row (.error (f e), w')
  | wrote {updated : ExecutionModel} {w' : World}
      (hdecide : request.decide row now.1 now.2 = .ok updated)
      (hstands : Stands w' id tenant_id (row.updatedTo updated)) :
      Changed f request id tenant_id now w row (.ok (), w')

theorem get_execution_of_stands {current : ExecutionModel} {executions : Executions}
    (h : Stands w id tenant_id row)
    (hread : get_execution id tenant_id w.database.state = .ok (current, executions)) :
    current = row ∧ executions = w.database.state := by
  have hfound : w.database.state.get_execution id tenant_id = .ok row := by
    have hvisible : (some row).filter (·.visible_to tenant_id) = some row :=
      Option.filter_some_pos h.2
    unfold Executions.get_execution
    rw [h.1, hvisible]
  unfold get_execution at hread
  rw [hfound] at hread
  cases hread
  exact ⟨rfl, rfl⟩

/-- A write of the execution's row is what the tenant sees afterwards. -/
theorem stands_of_update {updated : ExecutionModel} {w' : World}
    (h : Stands w id tenant_id row) (hid : updated.id = id)
    (hwrite : update_execution updated tenant_id w.database.state =
      .ok ((), w'.database.state)) : Stands w' id tenant_id (row.updatedTo updated) := by
  unfold update_execution at hwrite
  cases hupdate : w.database.state.update_execution updated tenant_id with
  | error e =>
    rw [hupdate] at hwrite
    cases hwrite
  | ok executions =>
    rw [hupdate] at hwrite
    have hafter : executions = w'.database.state := by
      injection hwrite with hpair
      exact congrArg Prod.snd hpair
    obtain ⟨before, hbefore, hfind⟩ := Executions.update_execution_eq_ok hupdate
    rw [hid, h.1] at hbefore
    cases hbefore
    constructor
    · rw [← hafter, hfind, if_pos hid.symm]
    · exact h.2

/-- What a state change ends with, on a row that the tenant sees. -/
theorem change_spec (f : RuntimeError → ExecutionError) {request : Orchestrator.Request}
    (context : String) (now : DateTime × DateTime) (h : Stands w id tenant_id row)
    (hvalid : request.validate = .ok ()) :
    Changed f request id tenant_id now w row
      (map_error f (change faults request context id tenant_id now) w) := by
  have hstart : (lift request.validate : Procedure World RuntimeError Unit) w = (.ok (), w) :=
    lift_eq_ok_iff.mpr ⟨hvalid, rfl⟩
  obtain ⟨e, w₁, hread, herrors⟩ | ⟨current, w₁, hread, -, hfound⟩ :=
    @storage_cases faults w _ (get_execution id tenant_id)
  · -- the row cannot be read
    have hfails : change faults request context id tenant_id now w = _ :=
      (bind_apply_ok hstart).trans (bind_apply_error (map_error_apply_error hread))
    rw [map_error_apply_error hfails]
    exact .storage_failed herrors
  obtain ⟨hcurrent, hsame⟩ := get_execution_of_stands h hfound
  rw [hcurrent] at hread
  have hstands : Stands w₁ id tenant_id row := by
    rw [Stands, hsame]
    exact h
  have hgoes : change faults request context id tenant_id now w = _ :=
    (bind_apply_ok hstart).trans (bind_apply_ok (map_error_apply_ok hread))
  cases hdecide : request.decide row now.1 now.2 with
  | error e =>
    have hrefused := hgoes.trans (bind_apply_error (lift_eq_error_iff.mpr ⟨hdecide, rfl⟩))
    rw [map_error_apply_error hrefused]
    exact .refused hdecide hstands
  | ok updated =>
    have hid : updated.id = id := by
      rw [(Orchestrator.Request.decide_eq_ok hvalid hdecide).1]
      exact Executions.id_of_find? h.1
    have hdecided := hgoes.trans (bind_apply_ok (lift_eq_ok_iff.mpr ⟨hdecide, rfl⟩))
    obtain ⟨e, w₂, hwrite, herrors⟩ | ⟨_, w₂, hwrite, -, hwritten⟩ :=
      @storage_cases faults w₁ _ (update_execution updated tenant_id)
    · -- the row cannot be written
      rw [map_error_apply_error (hdecided.trans (map_error_apply_error hwrite))]
      exact .storage_failed herrors
    · rw [map_error_apply_ok (hdecided.trans (map_error_apply_ok hwrite))]
      exact .wrote hdecide (stands_of_update hstands hid hwritten)

/-! ### What the program does -/

variable {f : RuntimeError → ExecutionError} {stamps : DateTime × DateTime}

/-- A storage error has ended the computation. -/
def StorageFailed (x : Procedure World ExecutionError Unit) (w : World) : Prop :=
  ∃ e w', x w = (.error e, w') ∧ w'.errors ≠ []

/-- The computation succeeds and leaves the row in this state, with this error message. -/
def Reaches (x : Procedure World ExecutionError Unit) (w : World) (id : Uuid)
    (tenant_id : TenantId) (state : ExecutionState) (message : Option String) : Prop :=
  ∃ row w', x w = (.ok (), w') ∧ Stands w' id tenant_id row ∧ row.state = state ∧
    row.error_message = message

/-- A state change with its errors turned into others, case by case. -/
theorem changed_cases {x : Procedure World ExecutionError Unit} {request : Orchestrator.Request}
    (h : Changed f request id tenant_id stamps w row (x w)) :
    StorageFailed x w ∨
      (∃ e w', request.decide row stamps.1 stamps.2 = .error e ∧ x w = (.error (f e), w') ∧
        Stands w' id tenant_id row) ∨
      ∃ updated w', request.decide row stamps.1 stamps.2 = .ok updated ∧ x w = (.ok (), w') ∧
        Stands w' id tenant_id (row.updatedTo updated) := by
  cases hresult : x w with
  | mk res w' =>
    rw [hresult] at h
    cases h with
    | storage_failed herrors => exact .inl ⟨_, _, hresult, herrors⟩
    | refused hdecide hstands => exact .inr (.inl ⟨_, _, hdecide, rfl, hstands⟩)
    | wrote hdecide hstands => exact .inr (.inr ⟨_, _, hdecide, rfl, hstands⟩)

/-- A legal change of state goes through, and touches no message. -/
theorem transition_spec {to_state : ExecutionState} (h : Stands w id tenant_id row)
    (hvalid : is_valid_transition row.state to_state = true) :
    StorageFailed (map_error f (transition_state faults id row.state to_state tenant_id stamps)) w ∨
      Reaches (map_error f (transition_state faults id row.state to_state tenant_id stamps)) w id
        tenant_id to_state row.error_message := by
  have hrequest : (Orchestrator.Request.transition_state row.state to_state).validate = .ok () :=
    if_pos hvalid
  have hspec := @change_spec faults w row id tenant_id f _ "Failed to update execution" stamps h
    hrequest
  obtain hfailed | ⟨e, w', hdecide, _⟩ | ⟨updated, w', hdecide, hresult, hstands⟩ :=
    changed_cases hspec
  · exact .inl hfailed
  · simp [Orchestrator.Request.decide, Servo.transition_state] at hdecide
  · refine .inr ⟨_, w', hresult, hstands, ?_⟩
    simp only [Orchestrator.Request.decide, Servo.transition_state, ne_eq, not_true_eq_false,
      if_false, Except.ok.injEq] at hdecide
    subst hdecide
    exact ⟨rfl, rfl⟩

/-- A failure is recorded where that is a legal step. -/
theorem record_failure_spec {error : String} (h : Stands w id tenant_id row)
    (hvalid : is_valid_transition row.state .failed = true) :
    StorageFailed (map_error f (record_failure faults id error tenant_id stamps)) w ∨
      Reaches (map_error f (record_failure faults id error tenant_id stamps)) w id tenant_id .failed
        (some error) := by
  have hspec := @change_spec faults w row id tenant_id f (.record_failure error)
    "Failed to record failure" stamps h rfl
  obtain hfailed | ⟨e, w', hdecide, _⟩ | ⟨updated, w', hdecide, hresult, hstands⟩ :=
    changed_cases hspec
  · exact .inl hfailed
  · simp [Orchestrator.Request.decide, Servo.record_failure, hvalid] at hdecide
  · refine .inr ⟨_, w', hresult, hstands, ?_⟩
    simp only [Orchestrator.Request.decide, Servo.record_failure, hvalid, if_true,
      Except.ok.injEq] at hdecide
    subst hdecide
    exact ⟨rfl, rfl⟩

/-- Elsewhere it is refused, and the row stays as it is. -/
theorem record_failure_refused {error : String} (h : Stands w id tenant_id row)
    (hinvalid : is_valid_transition row.state .failed = false) :
    StorageFailed (map_error f (record_failure faults id error tenant_id stamps)) w ∨
      ∃ w', map_error f (record_failure faults id error tenant_id stamps) w =
          (.error (f (.Execution ("Cannot transition to Failed from state " ++
            row.state.debug))), w') ∧ Stands w' id tenant_id row := by
  have hspec := @change_spec faults w row id tenant_id f (.record_failure error)
    "Failed to record failure" stamps h rfl
  obtain hfailed | ⟨e, w', hdecide, hresult, hstands⟩ | ⟨updated, w', hdecide, _⟩ :=
    changed_cases hspec
  · exact .inl hfailed
  · simp only [Orchestrator.Request.decide, Servo.record_failure, hinvalid, Bool.false_eq_true,
      if_false, Except.error.injEq] at hdecide
    subst hdecide
    exact .inr ⟨w', hresult, hstands⟩
  · simp [Orchestrator.Request.decide, Servo.record_failure, hinvalid] at hdecide

/-! ### The outcome -/

/-- What follows a step that has reached a state. -/
theorem bind_spec {x y : Procedure World ExecutionError Unit} {state : ExecutionState}
    {message : Option String} (hno_errors : ((x >>= fun _ => y) w).2.errors = [])
    (hx : StorageFailed x w ∨ Reaches x w id tenant_id state message) :
    ∃ row w', (x >>= fun _ => y) w = y w' ∧ Stands w' id tenant_id row ∧ row.state = state ∧
      row.error_message = message := by
  obtain ⟨e, w', hfails, herrors⟩ | ⟨row, w', hreaches, hrow⟩ := hx
  · rw [bind_apply_error hfails] at hno_errors
    exact absurd hno_errors herrors
  · exact ⟨row, w', bind_apply_ok hreaches, hrow⟩

/-- A result that one change of state records. -/
theorem recorded_of_reaches {x : Procedure World ExecutionError Unit}
    {result : Except ExecutionError Unit} {message : Option String}
    (hno_errors : (x w).2.errors = [])
    (hx : StorageFailed x w ∨ Reaches x w id tenant_id (final_state result) message)
    (hmessage : result ≠ .ok () → message ≠ none) : Recorded id result (x w) := by
  obtain ⟨e, w', hfails, herrors⟩ | ⟨row, w', hreaches, hrow, hstate, hstored⟩ := hx
  · rw [hfails] at hno_errors
    exact absurd hno_errors herrors
  · rw [hreaches]
    refine ⟨rfl, row, hrow.1, hstate, ?_⟩
    rw [hstored]
    exact hmessage

variable {now : Nat → DateTime × DateTime} {payload : TaskPayload}

theorem failed_after_timeout :
    state_transition "Failed to record timeout" (.Execution
        ("Cannot transition to Failed from state " ++ ExecutionState.timeout.debug)) =
      .StateTransition ("Failed to record timeout: Execution error: " ++
        "Cannot transition to Failed from state Timeout") := by
  have htext : "Failed to record timeout" ++ ": " ++ ("Execution error: " ++
      ("Cannot transition to Failed from state " ++ "Timeout")) =
        "Failed to record timeout: Execution error: " ++
          "Cannot transition to Failed from state Timeout" := by
    decide +kernel
  exact congrArg ExecutionError.StateTransition htext

/-- A timeout: the row is left in `timeout` with the message it had before, and the error says
    why. -/
theorem finish_timeout {duration : String}
    (h : Stands w payload.execution_id payload.tenant_id row) (hrunning : row.state = .running)
    (hno_errors : (finish faults now payload (.error (.Timeout duration)) w).2.errors = []) :
    ∃ row' w', finish faults now payload (.error (.Timeout duration)) w =
        (.error (.StateTransition ("Failed to record timeout: Execution error: " ++
          "Cannot transition to Failed from state Timeout")), w') ∧
      w'.database.state.find? payload.execution_id = some row' ∧ row'.state = .timeout ∧
      row'.error_message = row.error_message := by
  have hallowed : is_valid_transition row.state .timeout = true := by rw [hrunning]; rfl
  have hfirst := @transition_spec faults w row _ _ (state_transition "Failed to mark timeout")
    (now 1) .timeout h hallowed
  rw [hrunning] at hfirst
  obtain ⟨row₁, w₁, hrest, hstands₁, hstate₁, hmessage₁⟩ := bind_spec hno_errors hfirst
  -- nothing leads from `timeout` to `failed`
  have hrefused : is_valid_transition row₁.state .failed = false := by rw [hstate₁]; rfl
  have hsecond := @record_failure_refused faults w₁ row₁ _ _
    (state_transition "Failed to record timeout") (now 2) ("Execution timeout after " ++ duration)
    hstands₁ hrefused
  have hfinish : finish faults now payload (.error (.Timeout duration)) w = _ := hrest
  rw [hfinish] at hno_errors ⊢
  obtain ⟨e, w₂, hfails, herrors⟩ | ⟨w₂, hresult, hstands₂⟩ := hsecond
  · rw [hfails] at hno_errors
    exact absurd hno_errors herrors
  · refine ⟨row₁, w₂, ?_, hstands₂.1, hstate₁, hmessage₁⟩
    rw [hresult, hstate₁, failed_after_timeout]

/-- Any other result is recorded. -/
theorem finish_recorded {result : Except ExecutionError Unit}
    (h : Stands w payload.execution_id payload.tenant_id row) (hrunning : row.state = .running)
    (hno_timeout : ∀ duration, result ≠ .error (.Timeout duration))
    (hno_errors : (finish faults now payload result w).2.errors = []) :
    Recorded payload.execution_id result (finish faults now payload result w) := by
  have hfailed : ∀ e, result = .error e → (∀ duration, e ≠ .Timeout duration) →
      Recorded payload.execution_id result (finish faults now payload result w) := by
    intro e he hother
    subst he
    have hallowed : is_valid_transition row.state .failed = true := by rw [hrunning]; rfl
    have hspec := @record_failure_spec faults w row _ _
      (state_transition "Failed to record failure") (now 1) e.to_string h hallowed
    have hstate : final_state (.error e) = .failed := by
      cases e with
      | Timeout duration => exact absurd rfl (hother duration)
      | _ => rfl
    have hfinish : finish faults now payload (.error e) =
        map_error (state_transition "Failed to record failure") (record_failure faults
          payload.execution_id e.to_string payload.tenant_id (now 1)) := by
      cases e with
      | Timeout duration => exact absurd rfl (hother duration)
      | _ => rfl
    rw [hfinish] at hno_errors ⊢
    rw [← hstate] at hspec
    exact recorded_of_reaches hno_errors hspec fun _ => Option.some_ne_none _
  cases result with
  | error e =>
    apply hfailed e rfl
    intro duration htimeout
    exact hno_timeout duration (congrArg Except.error htimeout)
  | ok done =>
    have hallowed : is_valid_transition row.state .succeeded = true := by rw [hrunning]; rfl
    have hspec := @transition_spec faults w row _ _ (state_transition "Failed to mark success")
      (now 1) .succeeded h hallowed
    rw [hrunning] at hspec
    exact recorded_of_reaches hno_errors hspec fun hne => absurd rfl hne

/-- Where no storage call fails and nobody else writes, the outcome of a pending execution is
    recorded exactly if its workflow has not timed out. -/
theorem outcome_recorded_iff {timeout : String} {finished : Option (Except ExecutionError Unit)}
    (hrow : w.database.state.find? payload.execution_id = some row)
    (hvisible : row.visible_to payload.tenant_id = true) (hpending : row.state = .pending)
    (hno_errors : (execute faults timeout now payload finished w).2.errors = []) :
    Recorded payload.execution_id (select timeout finished)
        (execute faults timeout now payload finished w) ↔
      ∀ duration, select timeout finished ≠ .error (.Timeout duration) := by
  have hallowed : is_valid_transition row.state .running = true := by rw [hpending]; rfl
  have hstart := @transition_spec faults w row _ _ (state_transition "Failed to start") (now 0)
    .running ⟨hrow, hvisible⟩ hallowed
  rw [hpending] at hstart
  obtain ⟨row₁, w₁, hrest, hstands, hrunning, -⟩ := bind_spec hno_errors hstart
  have hexecute : execute faults timeout now payload finished w = _ := hrest
  rw [hexecute] at hno_errors ⊢
  constructor
  · intro hrecorded duration htimeout
    rw [htimeout] at hrecorded hno_errors
    obtain ⟨_, _, hfails, -⟩ := finish_timeout hstands hrunning hno_errors
    rw [hfails] at hrecorded
    cases hrecorded.1
  · intro hno_timeout
    exact finish_recorded hstands hrunning hno_timeout hno_errors

end

/-! ### One execution -/

/-- Execution `1`, just created. -/
def one_pending : World :=
  ⟨⟨Lifecycle.pending_execution.executions, 0⟩, []⟩

/-- Its task, with an empty plan. -/
def one_task : TaskPayload :=
  ⟨1, 2, "tenant", none, [], none⟩

/-- No fault, and a clock that goes on by one second for each change. -/
def run_one (finished : Option (Except ExecutionError Unit)) :
    Except ExecutionError Unit × World :=
  execute (fun _ => none) "600s" (fun n => (1000000 * (n + 1), 1000000 * (n + 1))) one_task
    finished one_pending

/-- An asset fails, and its error is stored. -/
theorem failure_recorded :
    Recorded 1 (.error (.Internal "exit status 1")) (run_one (some (.error
      (.Internal "exit status 1")))) := by
  apply (@outcome_recorded_iff _ one_pending (Lifecycle.new_execution 1 2 "tenant" none 0) _
    one_task "600s" (some (.error (.Internal "exit status 1"))) rfl (by decide) rfl
    (by decide +kernel)).mpr
  intro duration htimeout
  cases htimeout

/-- The workflow does not end within its 600 seconds. -/
theorem timeout_unrecorded :
    ¬ ∀ (faults : Nat → Option (Fault StorageError)) (timeout : String)
        (now : Nat → DateTime × DateTime) (payload : TaskPayload)
        (finished : Option (Except ExecutionError Unit)) (w : World) (row : ExecutionModel),
      w.database.state.find? payload.execution_id = some row →
      row.visible_to payload.tenant_id = true → row.state = .pending →
      (execute faults timeout now payload finished w).2.errors = [] →
      Recorded payload.execution_id (select timeout finished)
        (execute faults timeout now payload finished w) := by
  intro hall
  have hrecorded := hall (fun _ => none) "600s"
    (fun n => (1000000 * (n + 1), 1000000 * (n + 1))) one_task none one_pending
    (Lifecycle.new_execution 1 2 "tenant" none 0) rfl (by decide) rfl (by decide +kernel)
  have hfails : (run_one none).1 ≠ .ok () := by decide +kernel
  exact hfails hrecorded.1

end Servo.Worker.Outcome
