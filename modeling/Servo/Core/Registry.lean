import Servo.Core.Asset
import Servo.Framework.KeyIndex
import Servo.Framework.System

/-! # The Asset Registry

    The registry has its assets under their ids, and the ids under the names
    of the assets. Every operation runs under a lock, so any use of a registry
    is a sequence of operations.

    Each operation is its result and the registry afterwards.
-/

namespace Servo

inductive RegistryError where
  | AssetNotFound (asset : String)
  | AssetAlreadyExists (asset : String)
  | InvalidAsset (message : String)
  | LockPoisoned
  deriving DecidableEq

def RegistryError.to_string : RegistryError → String
  | .AssetNotFound asset => "Asset not found: " ++ asset
  | .AssetAlreadyExists asset => "Asset already exists: " ++ asset
  | .InvalidAsset message => "Invalid asset: " ++ message
  | .LockPoisoned => "Registry lock poisoned"

structure RegistryInner where
  assets_by_id : Finmap fun _ : AssetId => Asset
  assets_by_name : Finmap fun _ : String => AssetId

namespace RegistryInner

/-! ### Under the lock -/

/-- Put an asset into both maps. -/
def insert (inner : RegistryInner) (asset : Asset) : RegistryInner where
  assets_by_name := inner.assets_by_name.insert asset.name asset.id
  assets_by_id := inner.assets_by_id.insert asset.id asset

/-- Register a new asset. -/
def register (inner : RegistryInner) (asset : Asset) :
    Except RegistryError Unit × RegistryInner :=
  if asset.id ∈ inner.assets_by_id then
    (.error (.AssetAlreadyExists asset.id.debug), inner)
  else if asset.name ∈ inner.assets_by_name then
    (.error (.AssetAlreadyExists asset.name), inner)
  else (.ok (), inner.insert asset)

/-- The first loop of `register_batch`, with the names and the ids seen so far. -/
def validate_batch (inner : RegistryInner) (seen_names : List String) (seen_ids : List AssetId) :
    List Asset → Except RegistryError Unit
  | [] => .ok ()
  | asset :: assets =>
    if asset.name ∈ seen_names then .error (.AssetAlreadyExists asset.name)
    else if asset.id ∈ seen_ids then .error (.AssetAlreadyExists asset.id.debug)
    else if asset.name ∈ inner.assets_by_name then .error (.AssetAlreadyExists asset.name)
    else if asset.id ∈ inner.assets_by_id then .error (.AssetAlreadyExists asset.id.debug)
    else validate_batch inner (asset.name :: seen_names) (asset.id :: seen_ids) assets

/-- Register multiple assets in a batch. -/
def register_batch (inner : RegistryInner) (assets : List Asset) :
    Except RegistryError Unit × RegistryInner :=
  -- Validate all assets first
  match inner.validate_batch [] [] assets with
  | .error e => (.error e, inner)
  -- Register all assets
  | .ok () => (.ok (), assets.foldl insert inner)

/-- Update an existing asset. -/
def update (inner : RegistryInner) (asset : Asset) : Except RegistryError Unit × RegistryInner :=
  match inner.assets_by_id.lookup asset.id with
  | none => (.error (.AssetNotFound asset.id.debug), inner)
  | some old_asset =>
    if old_asset.name ≠ asset.name then
      if (inner.assets_by_name.lookup asset.name).any fun existing_id => existing_id ≠ asset.id then
        (.error (.AssetAlreadyExists asset.name), inner)
      else
        (.ok (), {
          assets_by_name :=
            (inner.assets_by_name.erase old_asset.name).insert asset.name asset.id
          assets_by_id := inner.assets_by_id.insert asset.id asset })
    else (.ok (), { inner with assets_by_id := inner.assets_by_id.insert asset.id asset })

/-- Remove an asset from the registry. -/
def remove (inner : RegistryInner) (id : AssetId) : Option Asset × RegistryInner :=
  match inner.assets_by_id.lookup id with
  | some asset => (some asset, {
      assets_by_id := inner.assets_by_id.erase id
      assets_by_name := inner.assets_by_name.erase asset.name })
  | none => (none, inner)

end RegistryInner

/-! ### The registry -/

structure AssetRegistry where
  inner : RegistryInner
  poisoned : Bool

namespace AssetRegistry

/-- Create a new asset registry. -/
def new : AssetRegistry := ⟨⟨∅, ∅⟩, false⟩

/-- An operation under the write lock. -/
def write {α : Type} (registry : AssetRegistry)
    (op : RegistryInner → Except RegistryError α × RegistryInner) :
    Except RegistryError α × AssetRegistry :=
  if registry.poisoned then (.error .LockPoisoned, registry)
  else ((op registry.inner).1, { registry with inner := (op registry.inner).2 })

def register (registry : AssetRegistry) (asset : Asset) :
    Except RegistryError Unit × AssetRegistry :=
  registry.write fun inner => inner.register asset

def register_batch (registry : AssetRegistry) (assets : List Asset) :
    Except RegistryError Unit × AssetRegistry :=
  registry.write fun inner => inner.register_batch assets

def update (registry : AssetRegistry) (asset : Asset) :
    Except RegistryError Unit × AssetRegistry :=
  registry.write fun inner => inner.update asset

/-- Nothing is removed if the lock is poisoned. -/
def remove (registry : AssetRegistry) (id : AssetId) : Option Asset × AssetRegistry :=
  let removed := registry.write fun inner => ((.ok (inner.remove id).1), (inner.remove id).2)
  (removed.1.toOption.join, removed.2)

/-- Clear all assets from the registry. -/
def clear (registry : AssetRegistry) : AssetRegistry :=
  (registry.write fun _ => (.ok (), ⟨∅, ∅⟩)).2

/-- Get an asset by ID. -/
def get_by_id (registry : AssetRegistry) (id : AssetId) : Option Asset :=
  if registry.poisoned then none else registry.inner.assets_by_id.lookup id

/-- Get an asset by name. -/
def get_by_name (registry : AssetRegistry) (name : String) : Option Asset :=
  if registry.poisoned then none
  else (registry.inner.assets_by_name.lookup name).bind registry.inner.assets_by_id.lookup

end AssetRegistry

end Servo
