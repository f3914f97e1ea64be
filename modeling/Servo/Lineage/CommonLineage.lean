import Mathlib.Data.List.Dedup
import Servo.Lineage.Traversal

/-! # Common Ancestors and Descendants

    `LineageQuery::common_ancestors` and `common_descendants` intersect what two
    traversals find. The depths are dropped: so the result is right wherever the
    traversals find the right assets, at whatever depths.

    Where each asset has one node, that is everywhere.
-/

namespace Servo

namespace LineageGraph

section

variable {P : DiGraph LineageNode LineageEdge} (G : LineageGraph P) (direction : Direction)

/-- What `common_ancestors` and `common_descendants` do. `intersection` yields each asset once, in
    no order that is promised. -/
def common_lineage (asset1 asset2 : AssetId) : Option (List AssetId) := do
  let found1 ← G.traverse_with_depth direction none asset1
  let found2 ← G.traverse_with_depth direction none asset2
  return (found1.map Prod.fst).dedup.filter (· ∈ found2.map Prod.fst)

/-- There is a path, which is not empty, from one asset to another. -/
def Reaches (start asset_id : AssetId) : Prop :=
  ∃ n, 0 < n ∧ G.AssetPath direction start asset_id n

/-- Each asset has one node. -/
def OneNode : Prop :=
  ∀ i j asset_id, G.NodeOf i asset_id → G.NodeOf j asset_id → i = j

end

end LineageGraph

/-- Find common ancestors of two assets. -/
def common_ancestors {P : DiGraph LineageNode LineageEdge} (G : LineageGraph P)
    (asset1 asset2 : AssetId) : Option (List AssetId) :=
  G.common_lineage .incoming asset1 asset2

/-- Find common descendants of two assets. -/
def common_descendants {P : DiGraph LineageNode LineageEdge} (G : LineageGraph P)
    (asset1 asset2 : AssetId) : Option (List AssetId) :=
  G.common_lineage .outgoing asset1 asset2

namespace LineageGraph

section

open LTS LineageCalls BreadthFirst

variable {P : DiGraph LineageNode LineageEdge} {capacity : Nat} {G : LineageGraph P}
  {direction : Direction}

/-- A traversal without a limit finds what can be reached. -/
theorem traverse_finds (hP : P.Lawful capacity) (hG : Reachable (lineage_system P) G)
    (hsimple : G.NoParallelEdges) (hone : G.OneNode) (start : AssetId) :
    ∃ result, G.traverse_with_depth direction none start = some result ∧
      ∀ asset_id, asset_id ∈ result.map Prod.fst ↔ G.Reaches direction start asset_id := by
  obtain ⟨result, hresult, -, hmem⟩ :=
    @traverse_with_depth_nodes P capacity G direction none start hP hsimple
  refine ⟨result, hresult, ?_⟩
  intro asset_id
  rw [List.mem_map]
  constructor
  · rintro ⟨⟨_, depth⟩, hfound, rfl⟩
    obtain ⟨start_idx, hstart, node_idx, hnode, hdistance, -⟩ := (hmem _ depth).mp hfound
    have hnode' := node_of_index hP hG hstart
    exact ⟨depth, hdistance.pos, start_idx, node_idx, hnode', hnode, hdistance.steps⟩
  · rintro ⟨n, hpos, i, j, hi, hj, hsteps⟩
    obtain ⟨start_idx, hstart, hnode⟩ := indexed_of_node hP hG hi
    -- the node of the index is the one that the path begins at
    obtain rfl := hone i start_idx start hi hnode
    obtain ⟨depth, hdistance, -⟩ := exists_distance hpos hsteps
    exact ⟨(asset_id, depth), (hmem _ _).mpr ⟨i, hstart, j, hj, hdistance, nofun⟩, rfl⟩

theorem common_lineage_eq (hP : P.Lawful capacity) (hG : Reachable (lineage_system P) G)
    (hsimple : G.NoParallelEdges) (hone : G.OneNode) (direction : Direction)
    (asset1 asset2 : AssetId) :
    ∃ result, G.common_lineage direction asset1 asset2 = some result ∧ result.Nodup ∧
      ∀ asset_id, asset_id ∈ result ↔
        G.Reaches direction asset1 asset_id ∧ G.Reaches direction asset2 asset_id := by
  obtain ⟨found1, hfound1, hmem1⟩ :=
    @traverse_finds P capacity G direction hP hG hsimple hone asset1
  obtain ⟨found2, hfound2, hmem2⟩ :=
    @traverse_finds P capacity G direction hP hG hsimple hone asset2
  refine ⟨(found1.map Prod.fst).dedup.filter (· ∈ found2.map Prod.fst), ?_, ?_, ?_⟩
  · rw [common_lineage, hfound1, hfound2]
    rfl
  · exact (List.nodup_dedup _).filter _
  · intro asset_id
    rw [List.mem_filter, List.mem_dedup, decide_eq_true_iff, hmem1, hmem2]

/-- **Common ancestors and descendants** are the assets that can be reached from both assets,
    against the edges or along them, each once. -/
theorem common_lineage_reached (hP : P.Lawful capacity) (hG : Reachable (lineage_system P) G)
    (hsimple : G.NoParallelEdges) (hone : G.OneNode) (asset1 asset2 : AssetId) :
    (∃ result, common_ancestors G asset1 asset2 = some result ∧ result.Nodup ∧
      ∀ asset_id, asset_id ∈ result ↔
        G.Reaches .incoming asset1 asset_id ∧ G.Reaches .incoming asset2 asset_id) ∧
    ∃ result, common_descendants G asset1 asset2 = some result ∧ result.Nodup ∧
      ∀ asset_id, asset_id ∈ result ↔
        G.Reaches .outgoing asset1 asset_id ∧ G.Reaches .outgoing asset2 asset_id :=
  ⟨common_lineage_eq hP hG hsimple hone .incoming asset1 asset2,
    common_lineage_eq hP hG hsimple hone .outgoing asset1 asset2⟩

end

/-- For two assets that depend on each other. -/
theorem common_lineage_reached_two_cycle :
    ∃ result, common_descendants two_cycle asset_one asset_two = some result ∧ result.Nodup ∧
      ∀ asset_id, asset_id ∈ result ↔ two_cycle.Reaches .outgoing asset_one asset_id ∧
        two_cycle.Reaches .outgoing asset_two asset_id :=
  (common_lineage_reached (DiGraph.lists_lawful LineageNode LineageEdge (2 ^ 32 - 1))
    two_cycle_reachable (fun _ _ => DiGraph.ListGraph.nodup_neighbors_directed (by decide))
    (fun _ _ _ => two_cycle_one_node) asset_one asset_two).2

end LineageGraph

end Servo
