/-! # Partition Configuration of an Asset

    `servo_core::asset`: how an asset is partitioned.
-/

namespace Servo

/-- `TimeGranularity`. -/
inductive TimeGranularity where
  | Hourly
  | Daily
  | Weekly
  | Monthly
  | Yearly
  deriving DecidableEq, Repr

/-- `PartitionType`. -/
inductive PartitionType where
  | Time (granularity : TimeGranularity)
  | Custom (expression : String)
  | Range (lower_bound upper_bound : String)
  deriving DecidableEq, Repr

/-- `PartitionConfig`. -/
structure PartitionConfig where
  partition_type : PartitionType
  partition_key : String
  deriving DecidableEq, Repr

end Servo
