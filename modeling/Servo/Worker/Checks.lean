import Servo.Core.Quality
import Servo.Storage.Metadata
import Servo.Worker.CheckValidator

/-! # Running the Checks of an Asset

    After each asset the worker runs its enabled checks, stores the results,
    and halts if a blocking check has failed. A check that could not be
    evaluated is stored as skipped.

    Whether a result blocks is decided in four places. Three of them require
    the severity `error`; the worker does not look at the severity.
-/

namespace Servo.Checks

open CheckValidator Quality

variable {F : Type}

/-! ### Results -/

/-- `CheckResultModel`. -/
structure CheckResultModel (F : Type) where
  id : Uuid
  check_id : Uuid
  execution_id : Uuid
  asset_id : Uuid
  outcome : String
  severity : String
  blocking : Bool
  failed_row_count : Option Int
  total_row_count : Option Int
  error_message : Option String
  failed_samples : Option (Value F)
  duration_ms : Int
  executed_at : DateTime
  metadata : Option (Value F)
  tenant_id : Option TenantId

/-- Result of executing a data quality check. -/
structure CheckOutcomeResult (F : Type) where
  passed : Bool
  skipped : Bool
  failed_count : Option Int
  total_count : Option Int
  error_message : Option String
  failed_samples : Option (Value F)

def CheckOutcomeResult.outcome_str (outcome : CheckOutcomeResult F) : String :=
  if outcome.skipped then "skipped" else if outcome.passed then "passed" else "failed"

/-- Convert ValidationResult to CheckOutcomeResult. -/
def outcome_of (result : ValidationResult F) : CheckOutcomeResult F :=
  if result.error_message.isSome && result.failed_count.isNone then
    -- Check errored; mark as skipped since it couldn't actually validate
    { passed := false
      skipped := true
      failed_count := none
      total_count := none
      error_message := result.error_message
      failed_samples := none }
  else if result.passed then
    { passed := true
      skipped := false
      failed_count := result.failed_count
      total_count := result.total_count
      error_message := none
      failed_samples := none }
  else
    { passed := false
      skipped := false
      failed_count := result.failed_count
      total_count := result.total_count
      error_message := result.error_message
      failed_samples := result.failed_samples }

/-- What a worker brings to its checks. -/
structure Worker (F : Type) where
  libraries : Libraries F
  /-- The value of a JSON column. -/
  value_of : Json → Value F
  /-- `PiiFilter::redact_json`. -/
  redact_json : Value F → Value F

/-- What a result gets from the clock and the random generator. -/
structure Stamp where
  id : Uuid
  duration_ms : Int
  executed_at : DateTime

/-! ### The storage -/

def validate_check_outcome (outcome : String) : Except StorageError Unit :=
  if outcome ∈ ["passed", "failed", "skipped", "error"] then .ok ()
  else .error (.ValidationError ("Invalid check outcome: " ++ outcome))

/-- Create multiple check results in a batch; the insertion may fail. -/
def create_check_results_batch (fault : Option StorageError)
    (results stored : List (CheckResultModel F)) :
    Except StorageError (List (CheckResultModel F)) := do
  results.forM fun result => do
    validate_check_outcome result.outcome
    validate_check_severity result.severity
  match fault with
  | some e => .error e
  | none => return stored ++ results

/-- Get blocking check failures for an execution. -/
def get_blocking_check_failures (stored : List (CheckResultModel F)) (execution_id : Uuid)
    (tenant_id : TenantId) : List (CheckResultModel F) :=
  (stored.filter fun result => visible_to tenant_id result.tenant_id &&
    result.execution_id = execution_id && result.blocking &&
    (result.outcome = "failed" || result.outcome = "error") &&
    result.severity = "error").insertionSort fun a b => a.executed_at ≤ b.executed_at

/-! ### The worker -/

section worker
variable [F64 F] (worker : Worker F) (asset_data : AssetOutput F)

/-- Execute a single check against asset data and return the outcome. -/
def execute_check (check : AssetCheckModel) : Option (CheckOutcomeResult F) :=
  (validate_check worker.libraries asset_data (worker.value_of check.check_type)).map outcome_of

/-- The result of one check. -/
def check_result (execution_id asset_id : Uuid) (tenant_id : TenantId)
    (stamp : AssetCheckModel → Stamp) (check : AssetCheckModel) :
    Option (CheckResultModel F) :=
  (execute_check worker asset_data check).map fun outcome =>
    { id := (stamp check).id
      check_id := check.id
      execution_id
      asset_id
      outcome := outcome.outcome_str
      severity := check.severity
      blocking := check.blocking
      failed_row_count := outcome.failed_count
      total_row_count := outcome.total_count
      error_message := outcome.error_message
      -- Apply PII filtering to failure samples
      failed_samples := outcome.failed_samples.map worker.redact_json
      duration_ms := (stamp check).duration_ms
      executed_at := (stamp check).executed_at
      metadata := none
      tenant_id := some tenant_id }

/-- Run the enabled checks of an asset and store their results; `none` if a validator panics. -/
def run_asset_checks (db : Metadata) (asset_id execution_id : Uuid) (tenant_id : TenantId)
    (stamp : AssetCheckModel → Stamp) (fault : Option StorageError)
    (stored : List (CheckResultModel F)) :
    Option (Except StorageError (List (CheckResultModel F) × List (CheckResultModel F))) :=
  let checks := db.list_asset_checks tenant_id asset_id true
  (checks.mapM (check_result worker asset_data execution_id asset_id tenant_id stamp)).map
    fun results =>
      if results = [] then .ok ([], stored)
      else (create_check_results_batch fault results stored).map fun stored => (results, stored)

end worker

/-- The blocking failure on which `execute_workflow` halts. -/
def halts_on (results : List (CheckResultModel F)) : Option (CheckResultModel F) :=
  results.find? fun result => result.blocking && result.outcome = "failed"

end Servo.Checks
