import Servo.Core.Asset
import Servo.Framework.DiGraph
import Servo.Framework.Fallible
import Servo.Framework.System
import Mathlib.Logic.Function.Basic

/-! # The Lineage Graph

    A graph of assets, and an index from the id of an asset to its node. The
    index is beside the graph: adding an asset again adds a second node and
    moves the index to it, while the edges stay at the first one. So what is
    upstream of an asset, by the index, are the edges added since the asset
    was added last.

    The graph type is a parameter. `none` stands for a panic.
-/

namespace Servo

/-! ### The code -/

/-- Node in the lineage graph. -/
structure LineageNode where
  asset_id : AssetId
  name : String
  node_type : String
  deriving DecidableEq

/-- Edge in the lineage graph. -/
structure LineageEdge where
  edge_type : String
  deriving DecidableEq

inductive LineageError where
  | NodeNotFound (message : String)
  | CircularDependency
  | InvalidLineage (message : String)
  | Query (message : String)
  deriving DecidableEq

/-- Lineage graph for tracking data dependencies. -/
structure LineageGraph (P : DiGraph LineageNode LineageEdge) where
  graph : P.Graph
  asset_to_node : AssetId → Option Nat

namespace LineageGraph

variable {P : DiGraph LineageNode LineageEdge}

/-- Create a new empty lineage graph. -/
def new : LineageGraph P := ⟨P.new, fun _ => none⟩

/-- Add a node to the graph. -/
def add_node (G : LineageGraph P) (node : LineageNode) : Option (LineageGraph P × Nat) :=
  (P.add_node G.graph node).map fun added =>
    (⟨added.1, Function.update G.asset_to_node node.asset_id (some added.2)⟩, added.2)

/-- Add an edge between two nodes. -/
def add_edge (G : LineageGraph P) (source target : AssetId) (edge : LineageEdge) :
    Option (Except LineageError (LineageGraph P)) :=
  match G.asset_to_node source with
  | none => some (.error (.NodeNotFound source.debug))
  | some from_idx =>
    match G.asset_to_node target with
    | none => some (.error (.NodeNotFound target.debug))
    | some to_idx =>
      (P.add_edge G.graph from_idx to_idx edge).map fun graph => .ok { G with graph := graph }

/-- The nodes next to an asset, in a direction. -/
def neighbors (G : LineageGraph P) (d : Direction) (asset_id : AssetId) :
    Option (List LineageNode) :=
  match G.asset_to_node asset_id with
  | some node_idx => (P.neighbors_directed G.graph node_idx d).mapM (P.node_weight G.graph)
  | none => some []

/-- Get all upstream dependencies of an asset. -/
def get_upstream (G : LineageGraph P) (asset_id : AssetId) : Option (List LineageNode) :=
  G.neighbors .incoming asset_id

/-- Get all downstream dependencies of an asset. -/
def get_downstream (G : LineageGraph P) (asset_id : AssetId) : Option (List LineageNode) :=
  G.neighbors .outgoing asset_id

end LineageGraph

/-! ### Calls -/

inductive LineageCall where
  | add_node (node : LineageNode)
  | add_edge (source target : AssetId) (edge : LineageEdge)

namespace LineageCalls

open LTS

variable {P : DiGraph LineageNode LineageEdge} {G G' : LineageGraph P}

/-- A call leaves the graph as it is if it returns an error. -/
def perform (G : LineageGraph P) : LineageCall → Option (LineageGraph P)
  | .add_node node => (G.add_node node).map (·.1)
  | .add_edge source target edge =>
    (G.add_edge source target edge).map fun result => result.toOption.getD G

/-- Any calls, one after the other. -/
def lineage_system (P : DiGraph LineageNode LineageEdge) :
    System (LineageGraph P) LineageCall where
  init := (· = .new)
  next := perform

/-- The asset is among the calls that add a node. Here and below, the newest call comes first. -/
def added (asset_id : AssetId) : List LineageCall → Prop
  | [] => False
  | .add_node node :: calls => node.asset_id = asset_id ∨ added asset_id calls
  | .add_edge _ _ _ :: calls => added asset_id calls

/-- An edge has been added between these assets, in this direction, since the first of them was
    added last. -/
def joined (d : Direction) (x y : AssetId) : List LineageCall → Prop
  | [] => False
  | .add_node node :: calls => node.asset_id ≠ x ∧ joined d x y calls
  | .add_edge source target _ :: calls =>
    (d.near source target = x ∧ d.far source target = y ∧ added source calls ∧
      added target calls) ∨ joined d x y calls

/-! ### What the graph represents -/

/-- The node has an edge to a node of this asset. -/
def Adjacent (G : LineageGraph P) (d : Direction) (node_idx : Nat) (y : AssetId) : Prop :=
  ∃ j ∈ P.neighbors_directed G.graph node_idx d, ∃ node,
    P.node_weight G.graph j = some node ∧ node.asset_id = y

/-- The graph after these calls. -/
structure Represents (G : LineageGraph P) (calls : List LineageCall) : Prop where
  indexed : ∀ x, (G.asset_to_node x).isSome ↔ added x calls
  /-- The index points at a node of the asset. -/
  weight : ∀ x i, G.asset_to_node x = some i →
    ∃ node, P.node_weight G.graph i = some node ∧ node.asset_id = x
  /-- That node has the edges since the asset was added last. -/
  edges : ∀ d x i y, G.asset_to_node x = some i → (Adjacent G d i y ↔ joined d x y calls)

section represents
variable {capacity : Nat} {calls : List LineageCall} {node : LineageNode}
  {source target x y : AssetId} {edge : LineageEdge}

theorem represents_new : Represents (.new : LineageGraph P) [] where
  indexed x := by
    show (none : Option Nat).isSome ↔ False
    simp
  weight x i h := by cases h
  edges d x i y h := by cases h

/-- The index points at a node that exists. -/
theorem Represents.index_lt (hP : P.Lawful capacity) (h : Represents G calls) {i : Nat}
    (hx : G.asset_to_node x = some i) : i < P.node_count G.graph := by
  obtain ⟨node, hnode, -⟩ := h.weight x i hx
  exact (hP.node_weight_isSome _ _).mp (by rw [hnode]; rfl)

/-- Different assets have different nodes. -/
theorem Represents.index_inj (h : Represents G calls) {i : Nat}
    (hx : G.asset_to_node x = some i) (hy : G.asset_to_node y = some i) : x = y := by
  obtain ⟨node, hnode, rfl⟩ := h.weight x i hx
  obtain ⟨node', hnode', rfl⟩ := h.weight y i hy
  rw [hnode] at hnode'
  exact congrArg LineageNode.asset_id (Option.some.inj hnode')

theorem add_node_eq_some {idx : Nat} (h : G.add_node node = some (G', idx)) :
    P.add_node G.graph node = some (G'.graph, idx) ∧
      G'.asset_to_node = Function.update G.asset_to_node node.asset_id (some idx) := by
  obtain ⟨added, hadd, heq⟩ := Option.map_eq_some_iff.mp h
  cases heq
  exact ⟨hadd, rfl⟩

/-- A node is added, for a new asset or for one that has a node. -/
theorem Represents.add_node {idx : Nat} (hP : P.Lawful capacity) (h : Represents G calls)
    (hadd : G.add_node node = some (G', idx)) : Represents G' (.add_node node :: calls) := by
  obtain ⟨hgraph, hindex⟩ := add_node_eq_some hadd
  have hidx := hP.add_node_index _ _ _ _ hgraph
  have hweight := hP.add_node_weight _ _ _ _ hgraph
  have hneighbors := hP.add_node_neighbors _ _ _ _ hgraph
  refine ⟨fun x => ?_, fun x i hx => ?_, fun d x i y hx => ?_⟩
  · rw [hindex, Function.update_apply]
    by_cases hid : x = node.asset_id
    · exact iff_of_true (by rw [if_pos hid]; rfl) (.inl hid.symm)
    · rw [if_neg hid, h.indexed]
      exact ⟨.inr, fun hadded => hadded.resolve_left (Ne.symm hid)⟩
  · rw [hindex, Function.update_apply] at hx
    rw [hweight]
    split at hx
    · next hid =>
      obtain rfl : idx = i := Option.some.inj hx
      exact ⟨node, if_pos rfl, hid.symm⟩
    · have hlt := h.index_lt hP hx
      rw [if_neg (by omega)]
      exact h.weight x i hx
  · rw [hindex, Function.update_apply] at hx
    split at hx
    · next hid =>
      -- the new node has no edges
      obtain rfl : idx = i := Option.some.inj hx
      refine iff_of_false ?_ (fun hjoined => hjoined.1 hid.symm)
      rintro ⟨j, hj, -⟩
      rw [hneighbors] at hj
      have := (hP.neighbors_lt _ _ _ j hj).1
      omega
    · next hid =>
      -- the other nodes keep their edges, and these lead to nodes that were there before
      have hsame : Adjacent G' d i y ↔ Adjacent G d i y := by
        unfold Adjacent
        simp only [hneighbors, hweight]
        refine exists_congr fun j => and_congr_right fun hj => ?_
        have := (hP.neighbors_lt _ _ _ j hj).2
        rw [if_neg (by omega)]
      rw [hsame, h.edges d x i y hx]
      exact ⟨fun hjoined => ⟨Ne.symm hid, hjoined⟩, fun hjoined => hjoined.2⟩

/-- What an edge needs, and what it changes. -/
theorem add_edge_eq_ok (h : G.add_edge source target edge = some (.ok G')) :
    ∃ from_idx to_idx, G.asset_to_node source = some from_idx ∧
      G.asset_to_node target = some to_idx ∧
      P.add_edge G.graph from_idx to_idx edge = some G'.graph ∧
      G'.asset_to_node = G.asset_to_node := by
  unfold LineageGraph.add_edge at h
  split at h
  · cases h
  · next from_idx hsource =>
    split at h
    · cases h
    · next to_idx htarget =>
      obtain ⟨graph, hgraph, heq⟩ := Option.map_eq_some_iff.mp h
      cases heq
      exact ⟨from_idx, to_idx, hsource, htarget, hgraph, rfl⟩

theorem add_edge_eq_error {e : LineageError}
    (h : G.add_edge source target edge = some (.error e)) :
    ∃ missing, (missing = source ∨ missing = target) ∧ G.asset_to_node missing = none ∧
      e = .NodeNotFound missing.debug := by
  unfold LineageGraph.add_edge at h
  split at h
  · next hsource =>
    cases h
    exact ⟨source, .inl rfl, hsource, rfl⟩
  · split at h
    · next htarget =>
      cases h
      exact ⟨target, .inr rfl, htarget, rfl⟩
    · obtain ⟨graph, -, heq⟩ := Option.map_eq_some_iff.mp h
      cases heq

/-- The ends of an edge, by their indices. -/
theorem near_index {from_idx to_idx : Nat} (d : Direction)
    (hsource : G.asset_to_node source = some from_idx)
    (htarget : G.asset_to_node target = some to_idx) :
    G.asset_to_node (d.near source target) = some (d.near from_idx to_idx) ∧
      G.asset_to_node (d.far source target) = some (d.far from_idx to_idx) := by
  cases d
  · exact ⟨hsource, htarget⟩
  · exact ⟨htarget, hsource⟩

theorem Represents.add_edge (hP : P.Lawful capacity) (h : Represents G calls)
    (hadd : G.add_edge source target edge = some (.ok G')) :
    Represents G' (.add_edge source target edge :: calls) := by
  obtain ⟨from_idx, to_idx, hsource, htarget, hgraph, hindex⟩ := add_edge_eq_ok hadd
  have hweight := hP.add_edge_weight _ _ _ _ _ hgraph
  have hneighbors := hP.mem_neighbors_add_edge _ _ _ _ _ hgraph
  have hadded_source : added source calls := (h.indexed source).mp (by rw [hsource]; rfl)
  have hadded_target : added target calls := (h.indexed target).mp (by rw [htarget]; rfl)
  refine ⟨fun x => ?_, fun x i hx => ?_, fun d x i y hx => ?_⟩
  · rw [hindex]
    exact h.indexed x
  · rw [hindex] at hx
    rw [hweight]
    exact h.weight x i hx
  · rw [hindex] at hx
    obtain ⟨hnear, hfar⟩ := near_index d hsource htarget
    obtain ⟨node, hnode, hid⟩ := h.weight _ _ hfar
    show Adjacent G' d i y ↔ _ ∨ _
    rw [← h.edges d x i y hx]
    constructor
    · intro ⟨j, hj, hj_node⟩
      rw [hweight] at hj_node
      rcases (hneighbors i j d).mp hj with hold | ⟨rfl, rfl⟩
      · exact .inr ⟨j, hold, hj_node⟩
      · -- it is the new edge
        obtain ⟨node', hnode', rfl⟩ := hj_node
        rw [hnode] at hnode'
        cases hnode'
        exact .inl ⟨h.index_inj hnear hx, hid.symm, hadded_source, hadded_target⟩
    · rintro (⟨rfl, rfl, -, -⟩ | ⟨j, hj, hj_node⟩)
      · obtain rfl : d.near from_idx to_idx = i := Option.some.inj (hnear.symm.trans hx)
        refine ⟨d.far from_idx to_idx, (hneighbors _ _ _).mpr (.inr ⟨rfl, rfl⟩), node, ?_, hid⟩
        rw [hweight]
        exact hnode
      · refine ⟨j, (hneighbors _ _ _).mpr (.inl hj), ?_⟩
        rw [hweight]
        exact hj_node

/-- An edge that is refused joins nothing. -/
theorem Represents.refuse_edge {e : LineageError} (h : Represents G calls)
    (hadd : G.add_edge source target edge = some (.error e)) :
    Represents G (.add_edge source target edge :: calls) := by
  obtain ⟨missing, hends, hnone, -⟩ := add_edge_eq_error hadd
  have hmissing : ¬ added missing calls := by
    intro hadded
    rw [← h.indexed, hnone] at hadded
    cases hadded
  have hnot : ¬ (added source calls ∧ added target calls) := by
    intro ⟨hsource, htarget⟩
    rcases hends with rfl | rfl
    · exact hmissing hsource
    · exact hmissing htarget
  refine ⟨h.indexed, h.weight, fun d x i y hx => ?_⟩
  rw [h.edges d x i y hx]
  constructor
  · exact .inr
  · rintro (⟨-, -, hadded⟩ | hjoined)
    · exact absurd hadded hnot
    · exact hjoined

end represents

/-! ### Runs -/

section run
variable {capacity : Nat} {tr : List (Step (LineageGraph P) LineageCall)}

/-- The calls of a run, the newest first. -/
abbrev calls (tr : List (Step (LineageGraph P) LineageCall)) : List LineageCall :=
  tr.map (·.label)

theorem perform_add_edge {source target : AssetId} {edge : LineageEdge}
    (h : perform G (.add_edge source target edge) = some G') :
    G.add_edge source target edge = some (.ok G') ∨
      ∃ e, G.add_edge source target edge = some (.error e) ∧ G' = G := by
  obtain ⟨result, hresult, heq⟩ := Option.map_eq_some_iff.mp h
  rw [hresult]
  cases result with
  | ok G₁ =>
    obtain rfl : G₁ = G' := heq
    exact .inl rfl
  | error e => exact .inr ⟨e, rfl, heq.symm⟩

theorem represents_of_run (hP : P.Lawful capacity) (h : Run (lineage_system P) tr G) :
    Represents G (calls tr) := by
  refine h.history_invariant (P := fun tr G => Represents G (calls tr)) ?_ ?_
  · rintro _ rfl
    exact represents_new
  · intro tr G l G' _ hrep hstep
    cases l with
    | add_node node =>
      obtain ⟨added, hadd, rfl⟩ := Option.map_eq_some_iff.mp hstep
      exact hrep.add_node hP hadd
    | add_edge source target edge =>
      rcases perform_add_edge hstep with hok | ⟨e, herror, rfl⟩
      · exact hrep.add_edge hP hok
      · exact hrep.refuse_edge herror

/-- There are no more nodes and edges than calls. -/
theorem counts_le (hP : P.Lawful capacity) (h : Run (lineage_system P) tr G) :
    P.node_count G.graph ≤ tr.length ∧ P.edge_count G.graph ≤ tr.length := by
  induction h with
  | init h =>
    obtain rfl := h
    exact ⟨hP.node_count_new.le, hP.edge_count_new.le⟩
  | @step tr G G' l _ hs ih =>
    rw [List.length_cons]
    cases l with
    | add_node node =>
      obtain ⟨added, hadd, rfl⟩ := Option.map_eq_some_iff.mp hs
      have := hP.add_node_count _ _ _ _ (add_node_eq_some hadd).1
      omega
    | add_edge source target edge =>
      rcases perform_add_edge hs with hok | ⟨e, -, rfl⟩
      · obtain ⟨_, _, -, -, hgraph, -⟩ := add_edge_eq_ok hok
        have := hP.add_edge_count _ _ _ _ _ hgraph
        omega
      · omega

/-- The graph has room for one more call. -/
theorem perform_isSome (hP : P.Lawful capacity) (h : Run (lineage_system P) tr G)
    (hroom : tr.length < capacity) (call : LineageCall) : ∃ G', perform G call = some G' := by
  have hcounts := counts_le hP h
  have hrep := represents_of_run hP h
  cases call with
  | add_node node =>
    obtain ⟨added, hadd⟩ := Option.isSome_iff_exists.mp
      (hP.add_node_isSome G.graph node (by omega))
    exact ⟨_, by rw [perform, LineageGraph.add_node, hadd]; rfl⟩
  | add_edge source target edge =>
    have hresult : (G.add_edge source target edge).isSome := by
      unfold LineageGraph.add_edge
      cases hsource : G.asset_to_node source with
      | none => rfl
      | some from_idx =>
        cases htarget : G.asset_to_node target with
        | none => rfl
        | some to_idx =>
          have hedge := hP.add_edge_isSome G.graph from_idx to_idx edge (hrep.index_lt hP hsource)
            (hrep.index_lt hP htarget) (by omega)
          show (Option.map _ (P.add_edge G.graph from_idx to_idx edge)).isSome
          rwa [Option.isSome_map]
    obtain ⟨result, hresult⟩ := Option.isSome_iff_exists.mp hresult
    exact ⟨_, by rw [perform, hresult]; rfl⟩

/-- **No call panics** as long as there are not more calls than the graph has room for. -/
theorem exists_run (hP : P.Lawful capacity) (cs : List LineageCall) (hroom : cs.length ≤ capacity) :
    ∃ tr G, Run (lineage_system P) tr G ∧ calls tr = cs := by
  induction cs with
  | nil => exact ⟨[], .new, .init rfl, rfl⟩
  | cons call cs ih =>
    rw [List.length_cons] at hroom
    obtain ⟨tr, G, hrun, hcalls⟩ := ih (by omega)
    have hlength : tr.length = cs.length := by rw [← hcalls, List.length_map]
    obtain ⟨G', hstep⟩ := perform_isSome hP hrun (by omega) call
    exact ⟨_, G', .step call hrun hstep, congrArg (call :: ·) hcalls⟩

end run

end LineageCalls

end Servo
