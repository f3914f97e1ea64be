import Servo.Lineage.Graph

/-! # Lost Edges

    An edge is seen from both of its ends exactly if it has been added since
    both were added last. Adding an asset again, to refresh it, loses its
    edges, until they are added again.
-/

namespace Servo.LineageCalls

open LTS

variable {P : DiGraph LineageNode LineageEdge} {capacity : Nat} {G : LineageGraph P}
  {tr : List (Step (LineageGraph P) LineageCall)}

/-! ### What the queries list -/

/-- The asset is among the nodes that are returned. -/
def Lists (asset_id : AssetId) (nodes : Option (List LineageNode)) : Prop :=
  ∃ found, nodes = some found ∧ asset_id ∈ found.map (·.asset_id)

/-- A query does not panic, and lists the assets that are joined since. -/
theorem lists_neighbors_iff (hP : P.Lawful capacity) {calls : List LineageCall}
    (h : Represents G calls) (d : Direction) (x y : AssetId) :
    Lists y (G.neighbors d x) ↔ added x calls ∧ joined d x y calls := by
  unfold LineageGraph.neighbors
  rw [← h.indexed x]
  cases hx : G.asset_to_node x with
  | none =>
    refine iff_of_false ?_ (fun hjoined => by cases hjoined.1)
    intro ⟨found, hfound, hmem⟩
    cases hfound
    cases hmem
  | some i =>
    have hexists : ∀ j ∈ P.neighbors_directed G.graph i d, (P.node_weight G.graph j).isSome :=
      fun j hj => (hP.node_weight_isSome _ _).mpr (hP.neighbors_lt _ _ _ j hj).2
    obtain ⟨found, hfound⟩ := Fallible.exists_mapM hexists
    rw [← h.edges d x i y hx]
    constructor
    · intro ⟨found', hfound', hmem⟩
      obtain ⟨node, hnode, rfl⟩ := List.mem_map.mp hmem
      obtain ⟨j, hj, hweight⟩ := (Fallible.mem_of_mapM hfound' node).mp hnode
      exact ⟨rfl, j, hj, node, hweight, rfl⟩
    · rintro ⟨-, j, hj, node, hweight, rfl⟩
      exact ⟨found, hfound, List.mem_map_of_mem ((Fallible.mem_of_mapM hfound node).mpr
        ⟨j, hj, hweight⟩)⟩

/-! ### Edges, by the calls -/

/-- An edge between assets that had both been added. -/
def edge_added (a b : AssetId) : List LineageCall → Prop
  | [] => False
  | .add_node _ :: calls => edge_added a b calls
  | .add_edge source target _ :: calls =>
    (source = a ∧ target = b ∧ added a calls ∧ added b calls) ∨ edge_added a b calls

/-- One that has been added since both assets were added last. -/
def edge_current (a b : AssetId) : List LineageCall → Prop
  | [] => False
  | .add_node node :: calls => node.asset_id ≠ a ∧ node.asset_id ≠ b ∧ edge_current a b calls
  | .add_edge source target _ :: calls =>
    (source = a ∧ target = b ∧ added a calls ∧ added b calls) ∨ edge_current a b calls

theorem edge_added_of_current {a b : AssetId} {calls : List LineageCall}
    (h : edge_current a b calls) : edge_added a b calls := by
  induction calls with
  | nil => exact h
  | cons call calls ih =>
    cases call with
    | add_node node => exact ih h.2.2
    | add_edge source target edge => exact h.imp_right ih

theorem added_of_edge_current {a b : AssetId} {calls : List LineageCall}
    (h : edge_current a b calls) : added a calls ∧ added b calls := by
  induction calls with
  | nil => cases h
  | cons call calls ih =>
    cases call with
    | add_node node => exact ⟨.inr (ih h.2.2).1, .inr (ih h.2.2).2⟩
    | add_edge source target edge =>
      rcases h with ⟨-, -, hadded⟩ | hcurrent
      · exact hadded
      · exact ih hcurrent

/-- The edges seen from both ends. -/
theorem edge_current_iff {a b : AssetId} {calls : List LineageCall} :
    edge_current a b calls ↔ joined .incoming b a calls ∧ joined .outgoing a b calls := by
  induction calls with
  | nil => simp [edge_current, joined]
  | cons call calls ih =>
    cases call with
    | add_node node =>
      simp only [edge_current, joined, ih]
      tauto
    | add_edge source target edge =>
      simp only [edge_current, joined, ih, Direction.near, Direction.far]
      constructor
      · rintro (⟨rfl, rfl, hadded⟩ | ⟨hin, hout⟩)
        · exact ⟨.inl ⟨rfl, rfl, hadded⟩, .inl ⟨rfl, rfl, hadded⟩⟩
        · exact ⟨.inr hin, .inr hout⟩
      · rintro ⟨⟨rfl, rfl, hadded⟩ | hin, hout⟩
        · exact .inl ⟨rfl, rfl, hadded⟩
        · -- a newer edge is newer for both ends
          rcases hout with ⟨rfl, rfl, hadded⟩ | hout
          · exact .inl ⟨rfl, rfl, hadded⟩
          · exact .inr ⟨hin, hout⟩

/-! ### Edges, by the results -/

/-- The step adds an edge and returns `Ok`. -/
def Accepted (a b : AssetId) (st : Step (LineageGraph P) LineageCall) : Prop :=
  ∃ edge, st.label = .add_edge a b edge ∧ st.pre.add_edge a b edge = some (.ok st.post)

theorem accepted_iff (hP : P.Lawful capacity) (hrun : Run (lineage_system P) tr G)
    (a b : AssetId) : (∃ st ∈ tr, Accepted a b st) ↔ edge_added a b (calls tr) := by
  induction hrun with
  | init h => simp [calls, edge_added]
  | @step tr G G' l hrun hs ih =>
    have hrep := represents_of_run hP hrun
    rw [List.exists_mem_cons_iff]
    cases l with
    | add_node node =>
      refine Iff.trans (or_iff_right ?_) ih
      rintro ⟨edge, hlabel, -⟩
      cases hlabel
    | add_edge source target edge =>
      refine or_congr ?_ ih
      constructor
      · intro ⟨edge', hlabel, hok⟩
        cases hlabel
        obtain ⟨from_idx, to_idx, hsource, htarget, -⟩ := add_edge_eq_ok hok
        refine ⟨rfl, rfl, (hrep.indexed a).mp ?_, (hrep.indexed b).mp ?_⟩
        · rw [hsource]
          rfl
        · rw [htarget]
          rfl
      · rintro ⟨rfl, rfl, hsource, htarget⟩
        rcases perform_add_edge hs with hok | ⟨e, herror, -⟩
        · exact ⟨edge, rfl, hok⟩
        · -- an error means that one of the ends has no node
          obtain ⟨missing, hends, hnone, -⟩ := add_edge_eq_error herror
          have hmissing : ¬ added missing (calls tr) := by
            intro hadded
            rw [← hrep.indexed, hnone] at hadded
            cases hadded
          rcases hends with rfl | rfl
          · exact absurd hsource hmissing
          · exact absurd htarget hmissing

/-! ### Which edges are lost -/

/-- The edges that were accepted, and no others, are listed at both ends. -/
def EdgesKept (tr : List (Step (LineageGraph P) LineageCall)) (G : LineageGraph P) : Prop :=
  ∀ a b, (Lists a (G.get_upstream b) ∧ Lists b (G.get_downstream a)) ↔ ∃ st ∈ tr, Accepted a b st

/-- What is listed at both ends is what has been added since both ends were. -/
theorem listed_iff (hP : P.Lawful capacity) (hrun : Run (lineage_system P) tr G) (a b : AssetId) :
    (Lists a (G.get_upstream b) ∧ Lists b (G.get_downstream a)) ↔ edge_current a b (calls tr) := by
  have hrep := represents_of_run hP hrun
  unfold LineageGraph.get_upstream LineageGraph.get_downstream
  rw [lists_neighbors_iff hP hrep, lists_neighbors_iff hP hrep]
  constructor
  · rintro ⟨⟨-, hin⟩, -, hout⟩
    exact edge_current_iff.mpr ⟨hin, hout⟩
  · intro hcurrent
    obtain ⟨hin, hout⟩ := edge_current_iff.mp hcurrent
    obtain ⟨ha, hb⟩ := added_of_edge_current hcurrent
    exact ⟨⟨hb, hin⟩, ha, hout⟩

/-- **No edge is lost**, after any calls, if and only if every edge has been added again since its
    ends were added last. -/
theorem edges_kept_iff (hP : P.Lawful capacity) (hrun : Run (lineage_system P) tr G) :
    EdgesKept tr G ↔ ∀ a b, edge_added a b (calls tr) → edge_current a b (calls tr) := by
  unfold EdgesKept
  constructor
  · intro hkept a b hadded
    exact (listed_iff hP hrun a b).mp ((hkept a b).mpr ((accepted_iff hP hrun a b).mpr hadded))
  · intro hcurrent a b
    rw [listed_iff hP hrun, accepted_iff hP hrun]
    exact ⟨edge_added_of_current, hcurrent a b⟩

/-! ### Refreshing an asset -/

/-- Graphs as lists. -/
abbrev list_graphs : DiGraph LineageNode LineageEdge := .lists LineageNode LineageEdge (2 ^ 32 - 1)

def table_node (id : AssetId) (name : String) : LineageNode := ⟨id, name, "table"⟩

/-- An edge from asset `1` to asset `2`. -/
def edge_one_two : LineageCall := .add_edge ⟨1⟩ ⟨2⟩ ⟨"data"⟩

/-- Two assets and an edge, the newest call first. -/
def two_assets : List LineageCall :=
  [edge_one_two, .add_node (table_node ⟨2⟩ "orders"), .add_node (table_node ⟨1⟩ "raw_orders")]

/-- Asset `1` is refreshed and the edge is added again. -/
theorem refresh_and_add_again :
    ∃ tr G, Run (lineage_system list_graphs) tr G ∧
      calls tr = edge_one_two :: .add_node (table_node ⟨1⟩ "raw_orders") :: two_assets ∧
      EdgesKept tr G := by
  have hP := DiGraph.lists_lawful LineageNode LineageEdge (2 ^ 32 - 1)
  obtain ⟨tr, G, hrun, hcalls⟩ := exists_run hP
    (edge_one_two :: .add_node (table_node ⟨1⟩ "raw_orders") :: two_assets) (by decide)
  refine ⟨tr, G, hrun, hcalls, (edges_kept_iff hP hrun).mpr ?_⟩
  intro a b hadded
  rw [hcalls] at hadded ⊢
  simp only [edge_added, edge_one_two, two_assets] at hadded
  have hab : (⟨1⟩ : AssetId) = a ∧ (⟨2⟩ : AssetId) = b := by tauto
  obtain ⟨rfl, rfl⟩ := hab
  simp [edge_current, edge_one_two, two_assets, added, table_node]

/-- Asset `1` is refreshed, and the edge is not added again. -/
theorem refresh_loses_edge :
    ¬ ∀ (P : DiGraph LineageNode LineageEdge) (capacity : Nat), P.Lawful capacity →
      ∀ tr (G : LineageGraph P), Run (lineage_system P) tr G → EdgesKept tr G := by
  intro hall
  have hP := DiGraph.lists_lawful LineageNode LineageEdge (2 ^ 32 - 1)
  obtain ⟨tr, G, hrun, hcalls⟩ := exists_run hP
    (.add_node (table_node ⟨1⟩ "raw_orders") :: two_assets) (by decide)
  have hadded : edge_added ⟨1⟩ ⟨2⟩ (calls tr) := by
    rw [hcalls]
    simp [edge_added, edge_one_two, two_assets, added, table_node]
  have hlisted := (hall _ _ hP tr G hrun ⟨1⟩ ⟨2⟩).mpr ((accepted_iff hP hrun _ _).mpr hadded)
  rw [listed_iff hP hrun, hcalls] at hlisted
  exact hlisted.1 rfl

end Servo.LineageCalls
