import Servo.Core.PartitionMapping

/-! # Resolving Partition Ranges

    `servo_runtime::partition_resolver`: the range of upstream partitions for a
    range of downstream partitions. Of a mapping that gives several keys for
    one, the first for the start and the last for the end are taken.
-/

namespace Servo

/-- `PartitionResolver`. -/
structure PartitionResolver where
  default_mapping : PartitionMapping

namespace PartitionResolver

def new : PartitionResolver := ⟨.Identity⟩

/-- Custom mappings are gated: they are not yet implemented. -/
def with_default_mapping : PartitionMapping → PartitionResolver
  | .Custom _ => new
  | mapping => ⟨mapping⟩

/-- The mapping for two assets: the inferred one, if there is one. -/
def mapping_for (self : PartitionResolver)
    (upstream_config downstream_config : Option PartitionConfig) : PartitionMapping :=
  match upstream_config, downstream_config with
  | some up, some down =>
    match infer_mapping up.partition_type down.partition_type with
    | .ok inferred => inferred
    | .error _ => self.default_mapping
  | _, _ => self.default_mapping

/-- `resolve_upstream_range`. It never returns an error; `none` is a panic. -/
def resolve_upstream_range {NaiveDate NaiveDateTime : Type}
    (chrono : Chrono NaiveDate NaiveDateTime) (self : PartitionResolver)
    (downstream_start downstream_end : String)
    (upstream_config downstream_config : Option PartitionConfig) :
    Option (Except String (String × String)) :=
  let mapping := self.mapping_for upstream_config downstream_config
  match mapping with
  | .Identity => some (.ok (downstream_start, downstream_end))
  | .TimeAggregation _ _ _ =>
    (mapping.map_partition chrono downstream_start).bind fun start_partitions =>
      (mapping.map_partition chrono downstream_end).bind fun end_partitions =>
        some (.ok (start_partitions.head?.getD downstream_start,
          end_partitions.getLast?.getD downstream_end))
  | .TimeWindow _ _ =>
    (mapping.map_partition chrono downstream_start).bind fun start_partitions =>
      -- Last in window = earliest
      some (.ok (start_partitions.getLast?.getD downstream_start, downstream_end))
  | .TimeOffset _ _ =>
    (mapping.map_partition chrono downstream_start).bind fun start_partitions =>
      (mapping.map_partition chrono downstream_end).bind fun end_partitions =>
        some (.ok (start_partitions.head?.getD downstream_start,
          end_partitions.head?.getD downstream_end))
  | .Custom _ => some (.ok (downstream_start, downstream_end))

end PartitionResolver

end Servo
