/-! # Directed Graphs with Indexed Nodes

    The interface of a graph type that numbers its nodes in the order in
    which they are added, and never takes a node or an edge away. `Lawful` is
    what a program may rely on: which nodes there are, and which ones an edge
    joins. In which order neighbours come is left open, and how often one
    comes that several edges lead to. `CountsEdges` is for programs to which
    this matters.

    `ListGraph` is a lawful implementation, and counts edges.
-/

inductive Direction where
  | outgoing
  | incoming
  deriving DecidableEq

namespace Direction

/-- The end of an edge at which one stands. -/
def near {α : Type} (d : Direction) (source target : α) : α :=
  match d with
  | outgoing => source
  | incoming => target

/-- The end of an edge that one looks at. -/
def far {α : Type} (d : Direction) (source target : α) : α :=
  match d with
  | outgoing => target
  | incoming => source

end Direction

/-- A graph type with nodes `N` and edges `E`; `none` stands for a panic. -/
structure DiGraph (N E : Type) where
  Graph : Type
  new : Graph
  node_count : Graph → Nat
  edge_count : Graph → Nat
  /-- The graph and the index of the new node. -/
  add_node : Graph → N → Option (Graph × Nat)
  add_edge : Graph → Nat → Nat → E → Option Graph
  node_weight : Graph → Nat → Option N
  neighbors_directed : Graph → Nat → Direction → List Nat

namespace DiGraph

variable {N E : Type}

/-- `P` is a graph with room for so many nodes, and as many edges. -/
structure Lawful (P : DiGraph N E) (capacity : Nat) : Prop where
  node_count_new : P.node_count P.new = 0
  edge_count_new : P.edge_count P.new = 0
  neighbors_new : ∀ i d, P.neighbors_directed P.new i d = []
  node_weight_isSome : ∀ g i, (P.node_weight g i).isSome ↔ i < P.node_count g
  /-- An edge joins nodes that exist. -/
  neighbors_lt : ∀ g i d, ∀ j ∈ P.neighbors_directed g i d,
    i < P.node_count g ∧ j < P.node_count g
  add_node_isSome : ∀ g w, P.node_count g < capacity → (P.add_node g w).isSome
  add_node_index : ∀ g w g' i, P.add_node g w = some (g', i) → i = P.node_count g
  add_node_count : ∀ g w g' i, P.add_node g w = some (g', i) →
    P.node_count g' = P.node_count g + 1 ∧ P.edge_count g' = P.edge_count g
  add_node_weight : ∀ g w g' i, P.add_node g w = some (g', i) →
    ∀ j, P.node_weight g' j = if j = i then some w else P.node_weight g j
  add_node_neighbors : ∀ g w g' i, P.add_node g w = some (g', i) →
    ∀ j d, P.neighbors_directed g' j d = P.neighbors_directed g j d
  add_edge_isSome : ∀ g a b e, a < P.node_count g → b < P.node_count g →
    P.edge_count g < capacity → (P.add_edge g a b e).isSome
  add_edge_count : ∀ g a b e g', P.add_edge g a b e = some g' →
    P.node_count g' = P.node_count g ∧ P.edge_count g' = P.edge_count g + 1
  add_edge_weight : ∀ g a b e g', P.add_edge g a b e = some g' →
    ∀ j, P.node_weight g' j = P.node_weight g j
  mem_neighbors_add_edge : ∀ g a b e g', P.add_edge g a b e = some g' →
    ∀ i j d, j ∈ P.neighbors_directed g' i d ↔
      j ∈ P.neighbors_directed g i d ∨ (i = d.near a b ∧ j = d.far a b)

/-- A neighbor comes once for every edge that leads to it. -/
def CountsEdges (P : DiGraph N E) : Prop :=
  ∀ g a b e g', P.add_edge g a b e = some g' → ∀ i j d,
    (P.neighbors_directed g' i d).count j = (P.neighbors_directed g i d).count j +
      if i = d.near a b ∧ j = d.far a b then 1 else 0

/-! ### A list of nodes and a list of edges -/

/-- The edges, the newest first, are pairs of positions in the list of nodes. -/
structure ListGraph (N E : Type) where
  nodes : List N
  edges : List (Nat × Nat × E)
  edges_lt : ∀ e ∈ edges, e.1 < nodes.length ∧ e.2.1 < nodes.length

namespace ListGraph

def add_node (capacity : Nat) (g : ListGraph N E) (w : N) : Option (ListGraph N E × Nat) :=
  if g.nodes.length < capacity then
    some (⟨g.nodes ++ [w], g.edges, by
      intro e he
      have := g.edges_lt e he
      rw [List.length_append]
      omega⟩, g.nodes.length)
  else none

def add_edge (capacity : Nat) (g : ListGraph N E) (a b : Nat) (e : E) :
    Option (ListGraph N E) :=
  if h : a < g.nodes.length ∧ b < g.nodes.length then
    if g.edges.length < capacity then
      some ⟨g.nodes, (a, b, e) :: g.edges, by
        intro e' he'
        rcases List.mem_cons.mp he' with rfl | he'
        · exact h
        · exact g.edges_lt e' he'⟩
    else none
  else none

def neighbors_directed (g : ListGraph N E) (i : Nat) (d : Direction) : List Nat :=
  (g.edges.filter fun e => d.near e.1 e.2.1 = i).map fun e => d.far e.1 e.2.1

theorem add_node_eq_some {capacity : Nat} {g g' : ListGraph N E} {w : N} {i : Nat}
    (h : g.add_node capacity w = some (g', i)) :
    g'.nodes = g.nodes ++ [w] ∧ g'.edges = g.edges ∧ i = g.nodes.length := by
  unfold add_node at h
  split at h
  · cases h
    exact ⟨rfl, rfl, rfl⟩
  · cases h

theorem add_edge_eq_some {capacity : Nat} {g g' : ListGraph N E} {a b : Nat} {e : E}
    (h : g.add_edge capacity a b e = some g') :
    g'.nodes = g.nodes ∧ g'.edges = (a, b, e) :: g.edges := by
  unfold add_edge at h
  split at h
  · split at h
    · cases h
      exact ⟨rfl, rfl⟩
    · cases h
  · cases h

theorem mem_neighbors_directed {g : ListGraph N E} {i j : Nat} {d : Direction} :
    j ∈ g.neighbors_directed i d ↔
      ∃ e ∈ g.edges, i = d.near e.1 e.2.1 ∧ j = d.far e.1 e.2.1 := by
  unfold neighbors_directed
  rw [List.mem_map]
  constructor
  · rintro ⟨e, he, rfl⟩
    have hmem := List.mem_filter.mp he
    exact ⟨e, hmem.1, (of_decide_eq_true hmem.2).symm, rfl⟩
  · rintro ⟨e, he, hi, rfl⟩
    exact ⟨e, List.mem_filter.mpr ⟨he, decide_eq_true hi.symm⟩, rfl⟩

/-- Every neighbor comes once if no two edges join the same nodes. -/
theorem nodup_neighbors_directed {g : ListGraph N E} {i : Nat} {d : Direction}
    (h : (g.edges.map fun e => (e.1, e.2.1)).Nodup) : (g.neighbors_directed i d).Nodup := by
  unfold neighbors_directed
  rw [List.Nodup, List.pairwise_map] at h ⊢
  refine (h.sublist List.filter_sublist).imp_of_mem ?_
  intro e e' he he' hne hfar
  have hnear := of_decide_eq_true (List.mem_filter.mp he).2
  have hnear' := of_decide_eq_true (List.mem_filter.mp he').2
  refine hne (Prod.ext ?_ ?_) <;> cases d <;> simp_all [Direction.near, Direction.far]

theorem neighbors_lt {g : ListGraph N E} {i j : Nat} {d : Direction}
    (h : j ∈ g.neighbors_directed i d) : i < g.nodes.length ∧ j < g.nodes.length := by
  obtain ⟨e, he, rfl, rfl⟩ := mem_neighbors_directed.mp h
  obtain ⟨hsource, htarget⟩ := g.edges_lt e he
  cases d
  · exact ⟨hsource, htarget⟩
  · exact ⟨htarget, hsource⟩

theorem add_node_isSome {capacity : Nat} (g : ListGraph N E) (w : N)
    (hroom : g.nodes.length < capacity) : (g.add_node capacity w).isSome := by
  rw [add_node, if_pos hroom]
  rfl

theorem getElem?_add_node {capacity : Nat} {g g' : ListGraph N E} {w : N} {i : Nat}
    (h : g.add_node capacity w = some (g', i)) (j : Nat) :
    g'.nodes[j]? = if j = i then some w else g.nodes[j]? := by
  obtain ⟨hnodes, -, rfl⟩ := add_node_eq_some h
  rw [hnodes]
  by_cases hj : j = g.nodes.length
  · rw [if_pos hj, hj, List.getElem?_concat_length]
  · rw [if_neg hj]
    by_cases hlt : j < g.nodes.length
    · exact List.getElem?_append_left hlt
    · rw [List.getElem?_eq_none (by rw [List.length_append, List.length_singleton]; omega),
        List.getElem?_eq_none (by omega)]

theorem neighbors_add_node {capacity : Nat} {g g' : ListGraph N E} {w : N} {i : Nat}
    (h : g.add_node capacity w = some (g', i)) (j : Nat) (d : Direction) :
    g'.neighbors_directed j d = g.neighbors_directed j d := by
  rw [neighbors_directed, neighbors_directed, (add_node_eq_some h).2.1]

theorem add_edge_isSome {capacity : Nat} (g : ListGraph N E) {a b : Nat} (e : E)
    (ha : a < g.nodes.length) (hb : b < g.nodes.length) (hroom : g.edges.length < capacity) :
    (g.add_edge capacity a b e).isSome := by
  rw [add_edge, dif_pos ⟨ha, hb⟩, if_pos hroom]
  rfl

theorem mem_neighbors_add_edge {capacity : Nat} {g g' : ListGraph N E} {a b : Nat} {e : E}
    (h : g.add_edge capacity a b e = some g') (i j : Nat) (d : Direction) :
    j ∈ g'.neighbors_directed i d ↔
      j ∈ g.neighbors_directed i d ∨ (i = d.near a b ∧ j = d.far a b) := by
  rw [mem_neighbors_directed, mem_neighbors_directed, (add_edge_eq_some h).2]
  constructor
  · intro ⟨e', he', hends⟩
    rcases List.mem_cons.mp he' with rfl | he'
    · exact .inr hends
    · exact .inl ⟨e', he', hends⟩
  · rintro (⟨e', he', hends⟩ | hends)
    · exact ⟨e', List.mem_cons_of_mem _ he', hends⟩
    · exact ⟨(a, b, e), List.mem_cons_self, hends⟩

theorem count_neighbors_add_edge {capacity : Nat} {g g' : ListGraph N E} {a b : Nat} {e : E}
    (h : g.add_edge capacity a b e = some g') (i j : Nat) (d : Direction) :
    (g'.neighbors_directed i d).count j = (g.neighbors_directed i d).count j +
      if i = d.near a b ∧ j = d.far a b then 1 else 0 := by
  unfold neighbors_directed
  rw [(add_edge_eq_some h).2]
  by_cases hnear : d.near a b = i
  · rw [List.filter_cons_of_pos (by simpa using hnear), List.map_cons, List.count_cons]
    by_cases hfar : d.far a b = j
    · simp [hnear, hfar]
    · have hfar' : ¬ j = d.far a b := fun h => hfar h.symm
      simp [hfar, hfar']
  · rw [List.filter_cons_of_neg (by simpa using hnear), if_neg fun h => hnear h.1.symm]
    rfl

end ListGraph

/-- Graphs as lists. -/
def lists (N E : Type) (capacity : Nat) : DiGraph N E where
  Graph := ListGraph N E
  new := ⟨[], [], by simp⟩
  node_count g := g.nodes.length
  edge_count g := g.edges.length
  add_node := ListGraph.add_node capacity
  add_edge := ListGraph.add_edge capacity
  node_weight g i := g.nodes[i]?
  neighbors_directed := ListGraph.neighbors_directed

theorem lists_lawful (N E : Type) (capacity : Nat) : (lists N E capacity).Lawful capacity where
  node_count_new := rfl
  edge_count_new := rfl
  neighbors_new _ _ := rfl
  node_weight_isSome g i := by
    show (g.nodes[i]?).isSome ↔ i < g.nodes.length
    simp
  neighbors_lt _ _ _ _ h := ListGraph.neighbors_lt h
  add_node_isSome := ListGraph.add_node_isSome
  add_node_index _ _ _ _ h := (ListGraph.add_node_eq_some h).2.2
  add_node_count _ _ _ _ h :=
    ⟨by simp [lists, (ListGraph.add_node_eq_some h).1],
      by simp [lists, (ListGraph.add_node_eq_some h).2.1]⟩
  add_node_weight _ _ _ _ h := ListGraph.getElem?_add_node h
  add_node_neighbors _ _ _ _ h := ListGraph.neighbors_add_node h
  add_edge_isSome g _ _ e ha hb hroom := ListGraph.add_edge_isSome g e ha hb hroom
  add_edge_count _ _ _ _ _ h :=
    ⟨by simp [lists, (ListGraph.add_edge_eq_some h).1],
      by simp [lists, (ListGraph.add_edge_eq_some h).2]⟩
  add_edge_weight g _ _ _ g' h j := by
    show g'.nodes[j]? = g.nodes[j]?
    rw [(ListGraph.add_edge_eq_some h).1]
  mem_neighbors_add_edge _ _ _ _ _ h := ListGraph.mem_neighbors_add_edge h

theorem lists_counts_edges (N E : Type) (capacity : Nat) : (lists N E capacity).CountsEdges :=
  fun _ _ _ _ _ h => ListGraph.count_neighbors_add_edge h

end DiGraph
