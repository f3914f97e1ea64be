import Servo.Core.StrMethods
import Servo.Storage.Executions

/-! # Input Validation Helpers

    What `PostgresStorage` tests of its arguments before it begins a
    transaction. A value that is refused never reaches the database.
-/

namespace Servo

/-- `validate_non_empty_string`. -/
def validate_non_empty_string (value field_name : String) : Except StorageError Unit :=
  if value.toList.all is_whitespace then
    .error (.ValidationError (field_name ++ " cannot be empty"))
  else .ok ()

def validate_pagination_params (limit offset : Int) : Except StorageError Unit :=
  if limit ≤ 0 then .error (.ValidationError "Limit must be greater than 0")
  else if 1000 < limit then .error (.ValidationError "Limit cannot exceed 1000")
  else if offset < 0 then .error (.ValidationError "Offset must be non-negative")
  else .ok ()

/-- `validate_execution_state`, with the state that the text names. -/
def validate_execution_state (state : String) : Except StorageError ExecutionState :=
  if state = "pending" then .ok .pending
  else if state = "running" then .ok .running
  else if state = "succeeded" then .ok .succeeded
  else if state = "failed" then .ok .failed
  else if state = "cancelled" then .ok .cancelled
  else if state = "timeout" then .ok .timeout
  else .error (.ValidationError ("Invalid execution state: " ++ state))

def validate_dependency_type (dep_type : String) : Except StorageError Unit :=
  if dep_type ∈ ["data", "metadata", "control"] then .ok ()
  else .error (.ValidationError ("Invalid dependency type: " ++ dep_type))

def validate_check_severity (severity : String) : Except StorageError Unit :=
  if severity ∈ ["info", "warning", "error"] then .ok ()
  else .error (.ValidationError ("Invalid check severity: " ++ severity))

end Servo
