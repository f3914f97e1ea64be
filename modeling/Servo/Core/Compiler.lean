import Servo.Core.Asset
import Servo.Framework.Fallible
import Servo.Framework.TopologicalSort

/-! # The Workflow Compiler

    `compile` looks up the assets of a workflow, counts the dependencies of
    each, and sorts the assets with Kahn's algorithm. The counts are those of
    the list of all dependencies (`dependency_edges`), so that the algorithm's
    own theorem applies to them.

    A cycle is not looked for: the sort has met one if it has emitted fewer
    assets than the workflow lists. A workflow may list an asset twice.
-/

namespace Servo

open TopologicalSort

inductive CompileError where
  | CircularDependency
  | MissingAsset (asset : String)
  | MissingDependency (asset missing : String)
  | DuplicateAsset (name : String)
  | InvalidWorkflow (reason : String)
  deriving DecidableEq

/-- `Workflow`, as far as the compiler reads it. -/
structure Workflow where
  id : Uuid
  assets : List AssetId
  deriving DecidableEq

/-- Add an asset to the workflow. -/
def Workflow.add_asset (workflow : Workflow) (asset_id : AssetId) : Workflow :=
  { workflow with assets := workflow.assets ++ [asset_id] }

structure ExecutionPlan where
  workflow_id : Uuid
  execution_order : List AssetId
  deriving DecidableEq

/-- The order in which a `HashMap` is iterated over: any order of its keys. -/
structure HashOrder (α : Type) where
  order : List α → List α
  perm : ∀ keys, (order keys).Perm keys

structure WorkflowCompiler where
  assets_by_id : AssetId → Option Asset
  assets_by_name : String → Option AssetId

namespace WorkflowCompiler

def new : WorkflowCompiler := ⟨fun _ => none, fun _ => none⟩

/-- Register an asset with the compiler. -/
def register_asset (compiler : WorkflowCompiler) (asset : Asset) :
    Except CompileError WorkflowCompiler :=
  if (compiler.assets_by_name asset.name).isSome then .error (.DuplicateAsset asset.name)
  else .ok
    { assets_by_name := Function.update compiler.assets_by_name asset.name (some asset.id)
      assets_by_id := Function.update compiler.assets_by_id asset.id (some asset) }

/-- All assets of the workflow have been registered. -/
def validate_assets_exist (compiler : WorkflowCompiler) (workflow : Workflow) :
    Except CompileError Unit :=
  workflow.assets.forM fun asset_id =>
    if (compiler.assets_by_id asset_id).isSome then .ok ()
    else .error (.MissingAsset asset_id.debug)

/-- The adjacency of the assets, and the indegree of each. -/
structure Counts where
  graph : AssetId → List AssetId
  indegree : AssetId → Nat

/-- `asset_id` depends on `upstream`. -/
def Counts.add (counts : Counts) (upstream asset_id : AssetId) : Counts where
  graph := Function.update counts.graph upstream (counts.graph upstream ++ [asset_id])
  indegree := Function.update counts.indegree asset_id (counts.indegree asset_id + 1)

/-- One dependency of an asset of the workflow. -/
def count_dependency (compiler : WorkflowCompiler) (workflow_assets : List AssetId)
    (asset_id : AssetId) (asset : Asset) (counts : Counts) (dependency : AssetDependency) :
    Except CompileError Counts :=
  let upstream := dependency.upstream_asset_id
  if (compiler.assets_by_id upstream).isNone then
    .error (.MissingDependency asset.name upstream.debug)
  else if upstream ∉ workflow_assets then
    .error (.MissingDependency asset.name upstream.debug)
  else .ok (counts.add upstream asset_id)

/-- The dependencies of one asset. -/
def count_asset (compiler : WorkflowCompiler) (workflow_assets : List AssetId) (counts : Counts)
    (asset_id : AssetId) : Except CompileError Counts :=
  match compiler.assets_by_id asset_id with
  | some asset =>
    asset.dependencies.foldlM (compiler.count_dependency workflow_assets asset_id asset) counts
  -- validated asset existence above
  | none => .ok counts

/-- Sort the assets of the workflow. Each of them is emitted at most once, so that the loop comes
    to its end after at most so many rounds. -/
def topological_sort (hash : HashOrder AssetId) (compiler : WorkflowCompiler)
    (workflow : Workflow) : Except CompileError (List AssetId) := do
  let workflow_assets := workflow.assets.dedup
  let counts ← workflow.assets.foldlM (compiler.count_asset workflow_assets)
    ⟨fun _ => [], fun _ => 0⟩
  let ready := (hash.order workflow_assets).filter fun asset_id => counts.indegree asset_id = 0
  let ordered := drain counts.graph workflow_assets.length counts.indegree ready []
  if ordered.length ≠ workflow.assets.length then .error .CircularDependency else .ok ordered

/-- Compile a workflow and validate it. -/
def compile (hash : HashOrder AssetId) (compiler : WorkflowCompiler) (workflow : Workflow) :
    Except CompileError ExecutionPlan := do
  compiler.validate_assets_exist workflow
  let execution_order ← compiler.topological_sort hash workflow
  return ⟨workflow.id, execution_order⟩

end WorkflowCompiler

/-! ### What is counted -/

section counting
variable {compiler : WorkflowCompiler} {workflow : Workflow}

namespace WorkflowCompiler

/-- The dependencies of an asset, as edges to it. -/
def edges_to (compiler : WorkflowCompiler) (asset_id : AssetId) : List (AssetId × AssetId) :=
  match compiler.assets_by_id asset_id with
  | some asset => asset.dependencies.map fun dependency => (dependency.upstream_asset_id, asset_id)
  | none => []

/-- All dependencies, in the order in which they are counted. -/
def dependency_edges (compiler : WorkflowCompiler) (assets : List AssetId) :
    List (AssetId × AssetId) := assets.flatMap compiler.edges_to

/-- The counts of a list of edges. -/
def Counts.of (edges : List (AssetId × AssetId)) : Counts := ⟨children edges, degree edges⟩

theorem Counts.of_add (edges : List (AssetId × AssetId)) (upstream asset_id : AssetId) :
    (Counts.of edges).add upstream asset_id = Counts.of (edges ++ [(upstream, asset_id)]) := by
  unfold Counts.of Counts.add
  congr 1
  · funext v
    by_cases hv : v = upstream
    · subst hv
      simp [children]
    · have hv' : ¬ upstream = v := fun h => hv h.symm
      simp [children, hv, hv']
  · funext v
    by_cases hv : v = asset_id
    · subst hv
      simp [degree]
    · have hv' : ¬ asset_id = v := fun h => hv h.symm
      simp [degree, hv, hv']

variable {workflow_assets : List AssetId} {asset_id : AssetId} {asset : Asset}

/-- A dependency that is accepted. -/
def Accepted (compiler : WorkflowCompiler) (workflow_assets : List AssetId)
    (edge : AssetId × AssetId) : Prop :=
  (compiler.assets_by_id edge.1).isSome = true ∧ edge.1 ∈ workflow_assets

theorem count_dependency_eq_ok_iff {counts counts' : Counts} {dependency : AssetDependency} :
    compiler.count_dependency workflow_assets asset_id asset counts dependency = .ok counts' ↔
      compiler.Accepted workflow_assets (dependency.upstream_asset_id, asset_id) ∧
        counts' = counts.add dependency.upstream_asset_id asset_id := by
  unfold count_dependency Accepted
  by_cases hregistered : (compiler.assets_by_id dependency.upstream_asset_id).isSome = true
  · have hnot : (compiler.assets_by_id dependency.upstream_asset_id).isNone = false := by
      simpa using hregistered
    by_cases hmem : dependency.upstream_asset_id ∈ workflow_assets
    · simp [hregistered, hnot, hmem, eq_comm]
    · simp [hnot, hmem]
  · have hnone : (compiler.assets_by_id dependency.upstream_asset_id).isNone = true := by
      simpa using hregistered
    simp [hnone, hregistered]

theorem count_dependencies_eq_ok_iff {dependencies : List AssetDependency}
    {edges : List (AssetId × AssetId)} {counts : Counts} :
    dependencies.foldlM (compiler.count_dependency workflow_assets asset_id asset)
        (Counts.of edges) = .ok counts ↔
      (∀ dependency ∈ dependencies,
        compiler.Accepted workflow_assets (dependency.upstream_asset_id, asset_id)) ∧
      counts = Counts.of
        (edges ++ dependencies.map fun dependency => (dependency.upstream_asset_id, asset_id)) := by
  induction dependencies generalizing edges with
  | nil => simp [pure, Except.pure, eq_comm]
  | cons dependency dependencies ih =>
    rw [List.foldlM_cons, Fallible.bind_eq_ok_iff]
    constructor
    · intro ⟨counts', hfirst, hrest⟩
      obtain ⟨haccepted, rfl⟩ := count_dependency_eq_ok_iff.mp hfirst
      rw [Counts.of_add] at hrest
      obtain ⟨hall, hcounts⟩ := ih.mp hrest
      exact ⟨List.forall_mem_cons.mpr ⟨haccepted, hall⟩, by simpa using hcounts⟩
    · intro ⟨hall, hcounts⟩
      obtain ⟨haccepted, hall⟩ := List.forall_mem_cons.mp hall
      refine ⟨_, count_dependency_eq_ok_iff.mpr ⟨haccepted, rfl⟩, ?_⟩
      rw [Counts.of_add]
      exact ih.mpr ⟨hall, by simpa using hcounts⟩

theorem count_asset_eq_ok_iff {edges : List (AssetId × AssetId)} {counts : Counts} :
    compiler.count_asset workflow_assets (Counts.of edges) asset_id = .ok counts ↔
      (∀ edge ∈ compiler.edges_to asset_id, compiler.Accepted workflow_assets edge) ∧
        counts = Counts.of (edges ++ compiler.edges_to asset_id) := by
  unfold count_asset edges_to
  cases hasset : compiler.assets_by_id asset_id with
  | some asset =>
    simp only [count_dependencies_eq_ok_iff, List.forall_mem_map]
  | none => simp [eq_comm]

/-- The first loop goes through exactly if all dependencies are in the workflow. -/
theorem count_assets_eq_ok_iff {assets : List AssetId} {edges : List (AssetId × AssetId)}
    {counts : Counts} :
    assets.foldlM (compiler.count_asset workflow_assets) (Counts.of edges) = .ok counts ↔
      (∀ edge ∈ compiler.dependency_edges assets, compiler.Accepted workflow_assets edge) ∧
        counts = Counts.of (edges ++ compiler.dependency_edges assets) := by
  induction assets generalizing edges with
  | nil => simp [dependency_edges, pure, Except.pure, eq_comm]
  | cons asset_id assets ih =>
    rw [List.foldlM_cons, Fallible.bind_eq_ok_iff]
    constructor
    · intro ⟨counts', hfirst, hrest⟩
      obtain ⟨haccepted, rfl⟩ := count_asset_eq_ok_iff.mp hfirst
      obtain ⟨hall, hcounts⟩ := ih.mp hrest
      refine ⟨?_, by simpa [dependency_edges] using hcounts⟩
      intro edge hedge
      rcases List.mem_append.mp hedge with hedge | hedge
      · exact haccepted edge hedge
      · exact hall edge hedge
    · intro ⟨hall, hcounts⟩
      refine ⟨_, count_asset_eq_ok_iff.mpr ⟨?_, rfl⟩, ih.mpr ⟨?_, ?_⟩⟩
      · exact fun edge hedge => hall edge (List.mem_append_left _ hedge)
      · exact fun edge hedge => hall edge (List.mem_append_right _ hedge)
      · simpa [dependency_edges] using hcounts

end WorkflowCompiler

end counting

end Servo
