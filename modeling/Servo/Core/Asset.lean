import Servo.Core.Uuid

/-! # Assets

    Assets as the compiler and the registry see them: an id, a name, and the
    assets they depend on.
-/

namespace Servo

structure AssetId where
  uuid : Uuid
  deriving DecidableEq

/-- The `Debug` text. -/
def AssetId.debug (id : AssetId) : String := "AssetId(" ++ id.uuid.to_string ++ ")"

inductive DependencyType where
  | data
  | metadata
  | control
  deriving DecidableEq

structure AssetDependency where
  upstream_asset_id : AssetId
  dependency_type : DependencyType
  deriving DecidableEq

/-- `Asset`, without its metadata. -/
structure Asset where
  id : AssetId
  name : String
  dependencies : List AssetDependency
  deriving DecidableEq

/-- Add a dependency on another asset. -/
def Asset.add_dependency (asset : Asset) (upstream : AssetId) (dep_type : DependencyType) :
    Asset :=
  -- Prevent duplicates to keep topology and lineage clean
  if asset.dependencies.any fun d =>
      d.upstream_asset_id = upstream ∧ d.dependency_type = dep_type then asset
  else { asset with dependencies := asset.dependencies ++ [⟨upstream, dep_type⟩] }

end Servo
