import Servo.Framework.Procedures
import Servo.Storage.Metadata

/-! # Running a Workflow Locally

    `run_workflow_locally` executes the assets of a workflow one after the
    other, in the order in which the storage returns them. It does not look at
    their dependencies.
-/

namespace Servo

open Procedure

/-- `servo_runtime::Error`, as far as a local run returns it. -/
inductive LocalRunError where
  | Execution (message : String)
  | NotFound (message : String)
  | Timeout (message : String)
  deriving DecidableEq

/-- `ExecutionResult`. -/
structure ExecutionResult where
  execution_id : Uuid
  success : Bool
  error : Option String
  deriving DecidableEq

/-- What a local run depends on beside the tables. -/
structure LocalExecutor where
  tenant_id : TenantId
  /-- Has the execution been cancelled when the run looks for the `n`-th time? -/
  cancelled : Nat → Bool
  /-- The Python subprocess of an asset. -/
  execute_asset_python : AssetModel → Except LocalRunError Unit

namespace LocalExecutor

variable (executor : LocalExecutor)

/-- The state of a run is the list of the assets that it has executed. -/
abbrev LocalRun : Type → Type := Procedure (List AssetModel) LocalRunError

def check_cancelled (n : Nat) : Except LocalRunError Unit :=
  if executor.cancelled n then .error (.Execution "Execution was cancelled") else .ok ()

def execute_asset (asset : AssetModel) : LocalRun Unit := fun executed =>
  match executor.execute_asset_python asset with
  | .ok () => (.ok (), executed ++ [asset])
  | .error e => (.error e, executed)

/-- The loop over the assets, from the one with this index. -/
def execute_assets (index : Nat) : List AssetModel → LocalRun Unit
  | [] => pure ()
  | asset :: assets => do
    lift (executor.check_cancelled (index + 1))
    executor.execute_asset asset
    execute_assets (index + 1) assets

def get_workflow (db : Metadata) (workflow_id : Uuid) : Except LocalRunError WorkflowModel :=
  match db.get_workflow executor.tenant_id workflow_id with
  | .ok workflow => .ok workflow
  | .error e => .error (.NotFound ("Workflow not found: " ++ e.to_string))

def run_workflow_locally (db : Metadata) (workflow_id execution_id : Uuid) :
    LocalRun ExecutionResult := do
  lift (executor.check_cancelled 0)
  let _ ← lift (executor.get_workflow db workflow_id)
  executor.execute_assets 0 (db.get_workflow_assets executor.tenant_id workflow_id)
  return ⟨execution_id, true, none⟩

/-! ### What is executed -/

/-- Nothing is cancelled, and every asset's function succeeds. -/
structure Undisturbed : Prop where
  not_cancelled : ∀ n, executor.cancelled n = false
  succeeds : ∀ asset, executor.execute_asset_python asset = .ok ()

variable {executor}

theorem Undisturbed.execute_assets (h : executor.Undisturbed) (index : Nat)
    (assets executed : List AssetModel) :
    executor.execute_assets index assets executed = (.ok (), executed ++ assets) := by
  induction assets generalizing index executed with
  | nil => rw [LocalExecutor.execute_assets, List.append_nil, pure_apply]
  | cons asset assets ih =>
    have hcheck : executor.check_cancelled (index + 1) = .ok () := by
      simp [check_cancelled, h.not_cancelled]
    have hasset : executor.execute_asset asset executed = (.ok (), executed ++ [asset]) := by
      simp [execute_asset, h.succeeds]
    rw [LocalExecutor.execute_assets, bind_apply_ok (lift_eq_ok_iff.mpr ⟨hcheck, rfl⟩),
      bind_apply_ok hasset, ih, List.append_assoc, List.singleton_append]

/-- An undisturbed run of a workflow that is there executes what the storage returns for it, in
    that order. -/
theorem Undisturbed.run_workflow_locally (h : executor.Undisturbed) {db : Metadata}
    {workflow_id execution_id : Uuid} {workflow : WorkflowModel}
    (hworkflow : db.get_workflow executor.tenant_id workflow_id = .ok workflow) :
    executor.run_workflow_locally db workflow_id execution_id [] =
      (.ok ⟨execution_id, true, none⟩, db.get_workflow_assets executor.tenant_id workflow_id) := by
  have hcheck : executor.check_cancelled 0 = .ok () := by
    simp [check_cancelled, h.not_cancelled]
  have hget : executor.get_workflow db workflow_id = .ok workflow := by
    simp [get_workflow, hworkflow]
  unfold LocalExecutor.run_workflow_locally
  rw [bind_apply_ok (lift_eq_ok_iff.mpr ⟨hcheck, rfl⟩),
    bind_apply_ok (lift_eq_ok_iff.mpr ⟨hget, rfl⟩), bind_apply_ok (h.execute_assets 0 _ []),
    List.nil_append, pure_apply]

end LocalExecutor

end Servo
