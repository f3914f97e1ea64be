import Servo.Core.Uuid
import Mathlib.Data.Finmap

/-! # Tasks for the Worker

    What is sent through the task queue to start an execution. The queue and
    the worker each have their own `TaskPayload`, with the same fields.
-/

namespace Servo

/-- `PartitionExecutionContext`. -/
structure PartitionExecutionContext where
  partition_key : String
  partition_type : Option String
  timezone : Option String
  format : Option String
  /-- Dimension name to value, for multi-dimensional partitions. -/
  dimensions : Finmap (fun _ : String => String)
  /-- Upstream asset name to the partition keys this partition depends on. -/
  upstream_partitions : Finmap (fun _ : String => List String)
  deriving DecidableEq

/-- `TaskPayload`. -/
structure TaskPayload where
  execution_id : Uuid
  workflow_id : Uuid
  tenant_id : String
  idempotency_key : Option String
  /-- Asset ids, topologically sorted. -/
  execution_plan : List Uuid
  partition_context : Option PartitionExecutionContext
  deriving DecidableEq

end Servo
