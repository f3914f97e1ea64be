import Servo.Framework.BreadthFirst
import Servo.Lineage.LostEdges

/-! # Lineage Traversal

    `LineageQuery::traverse_with_depth`: the assets upstream or downstream of
    an asset, with their depths. It is a breadth-first search over the nodes of
    the graph, and the depth of a node is its distance from the node of the
    start.

    An asset that has been added again has more than one node. If these are not
    at the same distance, the asset comes with more than one depth; and a node
    of the start that has been replaced is not searched.
-/

namespace Servo

open BreadthFirst

/-! ### The code -/

/-- The neighbors that have not been visited are put at the end of the queue. -/
def enqueue_neighbors (depth : Nat) (neighbors : List Nat)
    (found : List (Nat × Nat) × List Nat) : List (Nat × Nat) × List Nat :=
  neighbors.foldl (fun found neighbor =>
    if neighbor ∈ found.2 then found
    else (found.1 ++ [(neighbor, depth)], neighbor :: found.2)) found

namespace LineageGraph

variable {P : DiGraph LineageNode LineageEdge} (G : LineageGraph P) (direction : Direction)
  (max_depth : Option Nat)

/-- The loop over the queue; `none` is a panic, or that there are more rounds than `rounds`. -/
def traverse_loop : Nat → List (Nat × Nat) → List Nat → List (AssetId × Nat) →
    Option (List (AssetId × Nat))
  | _, [], _, result => some result
  | 0, _ :: _, _, _ => none
  | rounds + 1, (node_idx, depth) :: queue, visited, result =>
    -- Check depth limit
    if max_depth.any (· < depth) then traverse_loop rounds queue visited result
    else
      (P.node_weight G.graph node_idx).bind fun node =>
        let result := result ++ [(node.asset_id, depth)]
        -- Add neighbors at next depth
        if max_depth.all (depth < ·) then
          let found := enqueue_neighbors (depth + 1)
            (P.neighbors_directed G.graph node_idx direction) (queue, visited)
          traverse_loop rounds found.1 found.2 result
        else traverse_loop rounds queue visited result

/-- Internal helper for depth-limited traversal. Every round takes one of the direct neighbors or
    a node that has not been visited before. -/
def traverse_with_depth (start : AssetId) : Option (List (AssetId × Nat)) :=
  match G.asset_to_node start with
  | none => some []
  | some start_idx =>
    -- Initialize with direct neighbors at depth 1
    let neighbors := P.neighbors_directed G.graph start_idx direction
    let rounds := neighbors.length + P.node_count G.graph
    -- Sort by depth
    (traverse_loop G direction max_depth rounds (neighbors.map (·, 1)) neighbors []).map
      fun result => result.insertionSort fun a b => a.2 ≤ b.2

end LineageGraph

/-- Find all ancestors (upstream) up to a maximum depth. -/
def ancestors_with_depth {P : DiGraph LineageNode LineageEdge} (G : LineageGraph P)
    (asset_id : AssetId) (max_depth : Option Nat) : Option (List (AssetId × Nat)) :=
  G.traverse_with_depth .incoming max_depth asset_id

/-- Find all descendants (downstream) up to a maximum depth. -/
def descendants_with_depth {P : DiGraph LineageNode LineageEdge} (G : LineageGraph P)
    (asset_id : AssetId) (max_depth : Option Nat) : Option (List (AssetId × Nat)) :=
  G.traverse_with_depth .outgoing max_depth asset_id

/-! ### The search -/

/-- A neighbor is put into the queue when it is visited. -/
theorem enqueue_neighbors_eq (depth : Nat) (neighbors : List Nat) (queue : List (Nat × Nat))
    (visited : List Nat) :
    enqueue_neighbors depth neighbors (queue, visited) =
      (queue ++ (discover visited neighbors).1.map (fun v => (v, depth)),
        (discover visited neighbors).2) := by
  induction neighbors generalizing queue visited with
  | nil => simp [enqueue_neighbors, discover]
  | cons neighbor neighbors ih =>
    have hcons : enqueue_neighbors depth (neighbor :: neighbors) (queue, visited) =
        enqueue_neighbors depth neighbors
          (if neighbor ∈ visited then (queue, visited)
            else (queue ++ [(neighbor, depth)], neighbor :: visited)) := rfl
    rw [hcons, discover]
    by_cases hvisited : neighbor ∈ visited
    · rw [if_pos hvisited, if_pos hvisited]
      exact ih queue visited
    · rw [if_neg hvisited, if_neg hvisited, ih]
      simp

/-- The neighbors that are put into the queue, each once. -/
theorem enqueue_neighbors_spec (depth : Nat) (neighbors : List Nat) (queue : List (Nat × Nat))
    (visited : List Nat) :
    ∃ new : List Nat, new.Nodup ∧ (∀ v, v ∈ new ↔ v ∈ neighbors ∧ v ∉ visited) ∧
      (enqueue_neighbors depth neighbors (queue, visited)).1 =
        queue ++ new.map (fun v => (v, depth)) ∧
      ∀ v, v ∈ (enqueue_neighbors depth neighbors (queue, visited)).2 ↔
        v ∈ visited ∨ v ∈ neighbors := by
  rw [enqueue_neighbors_eq]
  exact ⟨(discover visited neighbors).1, nodup_discover _ _, fun v => mem_discover, rfl,
    fun v => mem_discover_visited⟩

namespace LineageGraph

section search
variable {P : DiGraph LineageNode LineageEdge} {capacity : Nat} (G : LineageGraph P)
  (direction : Direction) (max_depth : Option Nat)

/-- The nodes next to a node. -/
def next_nodes (node_idx : Nat) : List Nat := P.neighbors_directed G.graph node_idx direction

/-- The node belongs to this asset. -/
def NodeOf (node_idx : Nat) (asset_id : AssetId) : Prop :=
  ∃ node, P.node_weight G.graph node_idx = some node ∧ node.asset_id = asset_id

/-- The invariant of the loop; the start is found like any other node. -/
abbrev Searched (start_idx : Nat) (visited : List Nat) (done queue : List (Nat × Nat)) : Prop :=
  Inv (G.next_nodes direction) start_idx (fun depth => ∀ limit ∈ max_depth, depth < limit)
    (fun _ => False) (· ∈ visited) done queue

/-- What the loop has collected: the nodes within the limit, each with the asset it belongs to. -/
def Collected (done : List (Nat × Nat)) (result : List (AssetId × Nat)) : Prop :=
  ∀ asset_id depth, (asset_id, depth) ∈ result ↔
    ∃ node_idx, (node_idx, depth) ∈ done ∧ (∀ limit ∈ max_depth, depth ≤ limit) ∧
      G.NodeOf node_idx asset_id

variable {G direction max_depth} {start_idx : Nat}

theorem collected_nil : G.Collected max_depth [] [] := by
  intro asset_id depth
  simp

theorem Collected.skip {done : List (Nat × Nat)} {result : List (AssetId × Nat)}
    {node : Nat × Nat} (h : G.Collected max_depth done result)
    (hdepth : ¬ ∀ limit ∈ max_depth, node.2 ≤ limit) :
    G.Collected max_depth (done ++ [node]) result := by
  intro asset_id depth
  rw [h asset_id depth]
  refine exists_congr fun node_idx => ?_
  rw [List.mem_append, List.mem_singleton]
  constructor
  · intro h
    exact ⟨.inl h.1, h.2⟩
  · rintro ⟨hmem | rfl, hlimit, hnode⟩
    · exact ⟨hmem, hlimit, hnode⟩
    · exact absurd hlimit hdepth

theorem Collected.push {done : List (Nat × Nat)} {result : List (AssetId × Nat)}
    {node_idx depth : Nat} {node : LineageNode} (h : G.Collected max_depth done result)
    (hdepth : ∀ limit ∈ max_depth, depth ≤ limit)
    (hnode : P.node_weight G.graph node_idx = some node) :
    G.Collected max_depth (done ++ [(node_idx, depth)]) (result ++ [(node.asset_id, depth)]) := by
  intro asset_id depth'
  rw [List.mem_append, h asset_id depth', List.mem_singleton]
  constructor
  · rintro (⟨node_idx', hmem, hlimit, hof⟩ | heq)
    · exact ⟨node_idx', List.mem_append_left _ hmem, hlimit, hof⟩
    · cases heq
      exact ⟨node_idx, by simp, hdepth, node, hnode, rfl⟩
  · intro ⟨node_idx', hmem, hlimit, hof⟩
    rcases List.mem_append.mp hmem with hmem | hmem
    · exact .inl ⟨node_idx', hmem, hlimit, hof⟩
    · cases List.mem_singleton.mp hmem
      obtain ⟨node', hnode', rfl⟩ := hof
      rw [hnode] at hnode'
      cases hnode'
      exact .inr rfl

/-- Only nodes of the graph come into the queue, each at most once. -/
theorem Searched.length_le (hP : P.Lawful capacity) {visited : List Nat}
    {done queue : List (Nat × Nat)}
    (h : G.Searched direction max_depth start_idx visited done queue) :
    done.length + queue.length ≤ P.node_count G.graph := by
  have hsubset : (done ++ queue).map Prod.fst ⊆ List.range (P.node_count G.graph) := by
    intro v hv
    obtain ⟨p, hp, rfl⟩ := List.mem_map.mp hv
    obtain ⟨n, hn⟩ := Nat.exists_eq_succ_of_ne_zero (h.distance p hp).pos.ne'
    have hsteps := (h.distance p hp).steps
    rw [hn] at hsteps
    obtain ⟨w, -, hnext⟩ := hsteps
    exact List.mem_range.mpr (hP.neighbors_lt _ _ _ _ hnext).2
  have hle := (h.nodup.subperm hsubset).length_le
  simpa using hle

/-- The loop comes to its end with an empty queue. -/
theorem traverse_loop_searched (hP : P.Lawful capacity) {rounds : Nat} {visited : List Nat}
    {done queue : List (Nat × Nat)} {result : List (AssetId × Nat)}
    (h : G.Searched direction max_depth start_idx visited done queue)
    (hcollected : G.Collected max_depth done result)
    (hrounds : P.node_count G.graph ≤ rounds + done.length) :
    ∃ visited' done' result',
      G.traverse_loop direction max_depth rounds queue visited result = some result' ∧
      G.Searched direction max_depth start_idx visited' done' [] ∧
      G.Collected max_depth done' result' := by
  induction rounds generalizing visited done queue result with
  | zero =>
    have hle := h.length_le hP
    have hnil : queue = [] := List.length_eq_zero_iff.mp (by omega)
    subst hnil
    exact ⟨visited, done, result, by rw [traverse_loop], h, hcollected⟩
  | succ rounds ih =>
    cases queue with
    | nil => exact ⟨visited, done, result, by rw [traverse_loop], h, hcollected⟩
    | cons node queue =>
      obtain ⟨node_idx, depth⟩ := node
      have hlength : (done ++ [(node_idx, depth)]).length = done.length + 1 := by simp
      rw [traverse_loop]
      by_cases hlimit : ∀ limit ∈ max_depth, depth ≤ limit
      · have hany : max_depth.any (· < depth) = false := by
          cases max_depth <;> simp_all
        obtain ⟨w, -, hnext⟩ : ∃ w, True ∧ node_idx ∈ G.next_nodes direction w := by
          have hdistance := h.distance (node_idx, depth) (by simp)
          obtain ⟨n, hn⟩ := Nat.exists_eq_succ_of_ne_zero hdistance.pos.ne'
          have hsteps := hdistance.steps
          rw [hn] at hsteps
          obtain ⟨w, -, hnext⟩ := hsteps
          exact ⟨w, trivial, hnext⟩
        obtain ⟨node, hnode⟩ := Option.isSome_iff_exists.mp
          ((hP.node_weight_isSome _ _).mpr (hP.neighbors_lt _ _ _ _ hnext).2)
        have hpush := hcollected.push hlimit hnode
        simp only [hany, hnode, Option.bind_some]
        by_cases hlook : ∀ limit ∈ max_depth, depth < limit
        · have hall : max_depth.all (depth < ·) = true := by
            cases max_depth <;> simp_all
          obtain ⟨new, hnodup, hnew, hqueue, hvisited⟩ := enqueue_neighbors_spec (depth + 1)
            (P.neighbors_directed G.graph node_idx direction) queue visited
          have hinv := h.look hlook hnodup hnew hvisited
          rw [hall, hqueue]
          exact ih hinv hpush (by omega)
        · have hall : max_depth.all (depth < ·) = false := by
            cases max_depth <;> simp_all
          rw [hall]
          exact ih (h.pass hlook) hpush (by omega)
      · have hany : max_depth.any (· < depth) = true := by
          cases max_depth <;> simp_all
        have hlook : ¬ ∀ limit ∈ max_depth, depth < limit := fun hall =>
          hlimit fun limit hmem => (hall limit hmem).le
        rw [hany]
        exact ih (h.pass hlook) (hcollected.skip hlimit) (by omega)

end search

/-! ### What it finds -/

section exact
variable {P : DiGraph LineageNode LineageEdge} {capacity : Nat} (G : LineageGraph P)
  (direction : Direction) (max_depth : Option Nat)

/-- No two edges lead from one node to the same neighbor. -/
def NoParallelEdges : Prop := ∀ i d, (P.neighbors_directed G.graph i d).Nodup

/-- The distance from one node to another, along the edges in this direction. -/
abbrev NodeDistance (start_idx node_idx depth : Nat) : Prop :=
  Distance (G.next_nodes direction) start_idx node_idx depth

/-- A directed path of this length from a node of the start to a node of the asset. -/
def AssetPath (start asset_id : AssetId) (n : Nat) : Prop :=
  ∃ i j, G.NodeOf i start ∧ G.NodeOf j asset_id ∧ Steps (G.next_nodes direction) n i j

/-- The shortest path that is not empty has this length. -/
structure AssetDistance (start asset_id : AssetId) (depth : Nat) : Prop where
  pos : 0 < depth
  path : G.AssetPath direction start asset_id depth
  least : ∀ n, 0 < n → G.AssetPath direction start asset_id n → depth ≤ n

/-- The node of the start is as near as any other node of that asset, and the nodes of an asset
    that are found are all at one distance from it. -/
structure NodesAgree (start : AssetId) (start_idx : Nat) : Prop where
  nearest : ∀ asset_id n, 0 < n → (∀ limit ∈ max_depth, n ≤ limit) →
    G.AssetPath direction start asset_id n →
    ∃ j m, m ≤ n ∧ G.NodeOf j asset_id ∧ G.NodeDistance direction start_idx j m
  same : ∀ asset_id i j n m, G.NodeOf i asset_id → G.NodeOf j asset_id →
    G.NodeDistance direction start_idx i n → G.NodeDistance direction start_idx j m →
    (∀ limit ∈ max_depth, n ≤ limit) → (∀ limit ∈ max_depth, m ≤ limit) → n = m

variable {G direction max_depth} {start : AssetId}

/-- **Exact for nodes**: the traversal does not panic, and finds the nodes within the limit, by
    their distance from the node of the start. -/
theorem traverse_with_depth_nodes (hP : P.Lawful capacity) (hsimple : G.NoParallelEdges) :
    ∃ result, G.traverse_with_depth direction max_depth start = some result ∧
      result.Pairwise (fun a b => a.2 ≤ b.2) ∧
      ∀ asset_id depth, (asset_id, depth) ∈ result ↔
        ∃ start_idx ∈ G.asset_to_node start, ∃ node_idx, G.NodeOf node_idx asset_id ∧
          G.NodeDistance direction start_idx node_idx depth ∧
          ∀ limit ∈ max_depth, depth ≤ limit := by
  unfold traverse_with_depth
  cases hstart : G.asset_to_node start with
  | none => exact ⟨[], rfl, .nil, by simp⟩
  | some start_idx =>
    have hinv : G.Searched direction max_depth start_idx (G.next_nodes direction start_idx) []
        ((G.next_nodes direction start_idx).map (·, 1)) :=
      Inv.start (by simp) (hsimple start_idx direction) (by simp) (by simp)
    obtain ⟨visited, done, result, hloop, hsearched, hcollected⟩ :=
      traverse_loop_searched hP hinv collected_nil (Nat.le_add_left _ _)
    have htotal : ∀ a b : AssetId × Nat, a.2 ≤ b.2 ∨ b.2 ≤ a.2 := fun a b => le_total a.2 b.2
    have htrans : ∀ a b c : AssetId × Nat, a.2 ≤ b.2 → b.2 ≤ c.2 → a.2 ≤ c.2 :=
      fun a b c => le_trans
    have : Std.Total fun a b : AssetId × Nat => a.2 ≤ b.2 := ⟨htotal⟩
    have : IsTrans (AssetId × Nat) fun a b => a.2 ≤ b.2 := ⟨htrans⟩
    refine ⟨_, congrArg (Option.map _) hloop, List.pairwise_insertionSort _ _,
      fun asset_id depth => ?_⟩
    rw [List.mem_insertionSort, hcollected asset_id depth]
    constructor
    · intro ⟨node_idx, hdone, hlimit, hnode⟩
      exact ⟨start_idx, rfl, node_idx, hnode, (hsearched.found hdone).2.1, hlimit⟩
    · intro ⟨_, hstart', node_idx, hnode, hdistance, hlimit⟩
      obtain rfl : start_idx = _ := Option.some.inj hstart'
      refine ⟨node_idx, hsearched.found_iff.mpr ⟨not_false, hdistance, ?_⟩, hlimit, hnode⟩
      intro j _ hj limit hmem
      exact hj.trans_le (hlimit limit hmem)

end exact

/-! ### Nodes and assets -/

section assets
open LTS LineageCalls
variable {P : DiGraph LineageNode LineageEdge} {capacity : Nat} {G : LineageGraph P}
  {direction : Direction} {max_depth : Option Nat} {start : AssetId}

/-- An asset that has a node is in the index, with one of its nodes. -/
theorem indexed_of_node (hP : P.Lawful capacity) (hG : Reachable (lineage_system P) G)
    {node_idx : Nat} {asset_id : AssetId} (h : G.NodeOf node_idx asset_id) :
    ∃ idx, G.asset_to_node asset_id = some idx ∧ G.NodeOf idx asset_id := by
  obtain ⟨tr, hrun⟩ := hG
  have hadded : ∀ i node, P.node_weight G.graph i = some node →
      added node.asset_id (calls tr) := by
    refine hrun.history_invariant (P := fun tr G => ∀ i node, P.node_weight G.graph i = some node →
      added node.asset_id (calls tr)) ?_ ?_
    · rintro _ rfl i node hnode
      have hlt := (hP.node_weight_isSome P.new i).mp 
        (Option.isSome_iff_exists.mpr ⟨node, hnode⟩)
      rw [hP.node_count_new] at hlt
      omega
    · intro tr G l G' _ ih hstep i node hnode
      cases l with
      | add_node new =>
        obtain ⟨⟨G'', idx⟩, hadd, rfl⟩ := Option.map_eq_some_iff.mp hstep
        have hweight := hP.add_node_weight _ _ _ _ (add_node_eq_some hadd).1 i
        rw [hweight] at hnode
        by_cases hidx : i = idx
        · rw [if_pos hidx] at hnode
          cases hnode
          exact .inl rfl
        · rw [if_neg hidx] at hnode
          exact .inr (ih i node hnode)
      | add_edge source target edge =>
        rcases perform_add_edge hstep with hok | ⟨e, -, rfl⟩
        · obtain ⟨_, _, -, -, hgraph, -⟩ := add_edge_eq_ok hok
          rw [hP.add_edge_weight _ _ _ _ _ hgraph] at hnode
          exact ih i node hnode
        · exact ih i node hnode
  obtain ⟨node, hnode, rfl⟩ := h
  have hrep := represents_of_run hP hrun
  obtain ⟨idx, hidx⟩ := Option.isSome_iff_exists.mp
    ((hrep.indexed _).mpr (hadded node_idx node hnode))
  exact ⟨idx, hidx, hrep.weight _ _ hidx⟩

/-- Where the index points is a node of the asset. -/
theorem node_of_index (hP : P.Lawful capacity) (hG : Reachable (lineage_system P) G)
    {start_idx : Nat} (h : G.asset_to_node start = some start_idx) : G.NodeOf start_idx start := by
  obtain ⟨tr, hrun⟩ := hG
  exact (represents_of_run hP hrun).weight start start_idx h

theorem AssetDistance.unique {asset_id : AssetId} {n m : Nat}
    (h : G.AssetDistance direction start asset_id n)
    (h' : G.AssetDistance direction start asset_id m) : n = m :=
  le_antisymm (h.least m h'.pos h'.path) (h'.least n h.pos h.path)

theorem exists_asset_distance {asset_id : AssetId} {n : Nat} (hn : 0 < n)
    (h : G.AssetPath direction start asset_id n) :
    ∃ depth, depth ≤ n ∧ G.AssetDistance direction start asset_id depth := by
  classical
  have hexists : ∃ k, 0 < k ∧ G.AssetPath direction start asset_id k := ⟨n, hn, h⟩
  refine ⟨Nat.find hexists, Nat.find_min' hexists ⟨hn, h⟩, (Nat.find_spec hexists).1,
    (Nat.find_spec hexists).2, fun m hm hpath => ?_⟩
  exact Nat.find_min' hexists ⟨hm, hpath⟩

/-- When the nodes agree, the distance of a node is that of its asset. -/
theorem NodesAgree.asset_distance {start_idx node_idx depth : Nat} {asset_id : AssetId}
    (h : G.NodesAgree direction max_depth start start_idx) (hstart : G.NodeOf start_idx start)
    (hnode : G.NodeOf node_idx asset_id)
    (hdistance : G.NodeDistance direction start_idx node_idx depth)
    (hlimit : ∀ limit ∈ max_depth, depth ≤ limit) :
    G.AssetDistance direction start asset_id depth := by
  refine ⟨hdistance.pos, ⟨start_idx, node_idx, hstart, hnode, hdistance.steps⟩, ?_⟩
  intro n hn hpath
  by_contra hlt
  have hwithin : ∀ limit ∈ max_depth, n ≤ limit := by
    intro limit hmem
    have := hlimit limit hmem
    omega
  obtain ⟨j, m, hle, hj, hm⟩ := h.nearest asset_id n hn hwithin hpath
  have heq := h.same asset_id j node_idx m depth hj hnode hm hdistance
    (fun limit hmem => hle.trans (hwithin limit hmem)) hlimit
  omega

/-- Assets that have one node each agree. -/
theorem nodes_agree_of_one_node {start_idx : Nat} (hstart : G.NodeOf start_idx start)
    (hone : ∀ i j asset_id, G.NodeOf i asset_id → G.NodeOf j asset_id → i = j) :
    G.NodesAgree direction max_depth start start_idx where
  nearest := by
    rintro asset_id n hn - ⟨i, j, hi, hj, hsteps⟩
    obtain rfl := hone i start_idx start hi hstart
    obtain ⟨m, hm, hle⟩ := exists_distance hn hsteps
    exact ⟨j, m, hle, hj, hm⟩
  same := by
    intro asset_id i j n m hi hj hn hm _ _
    obtain rfl := hone i j asset_id hi hj
    exact hn.unique hm

/-- **The traversal is exact** if and only if the nodes of each asset agree. -/
theorem traverses_exactly_iff (hP : P.Lawful capacity) (hG : Reachable (lineage_system P) G)
    (hsimple : G.NoParallelEdges) (direction : Direction) (max_depth : Option Nat)
    (start : AssetId) :
    ∃ result, G.traverse_with_depth direction max_depth start = some result ∧
      result.Pairwise (fun a b => a.2 ≤ b.2) ∧
      ((∀ asset_id depth, (asset_id, depth) ∈ result ↔
          G.AssetDistance direction start asset_id depth ∧ ∀ limit ∈ max_depth, depth ≤ limit) ↔
        ∀ start_idx ∈ G.asset_to_node start, G.NodesAgree direction max_depth start start_idx) := by
  obtain ⟨result, hresult, hsorted, hmem⟩ :=
    @traverse_with_depth_nodes P capacity G direction max_depth start hP hsimple
  refine ⟨result, hresult, hsorted, ?_⟩
  constructor
  · intro hexact start_idx hstart
    constructor
    · intro asset_id n hn hlimit hpath
      obtain ⟨depth, hle, hdistance⟩ := exists_asset_distance hn hpath
      obtain ⟨start_idx', hstart', node_idx, hnode, hnear, -⟩ := (hmem asset_id depth).mp
        ((hexact asset_id depth).mpr ⟨hdistance, fun limit h => hle.trans (hlimit limit h)⟩)
      obtain rfl : start_idx = start_idx' := Option.some.inj (hstart.symm.trans hstart')
      exact ⟨node_idx, depth, hle, hnode, hnear⟩
    · intro asset_id i j n m hi hj hn hm hn' hm'
      have hfound := (hexact asset_id n).mp
        ((hmem asset_id n).mpr ⟨start_idx, hstart, i, hi, hn, hn'⟩)
      have hfound' := (hexact asset_id m).mp
        ((hmem asset_id m).mpr ⟨start_idx, hstart, j, hj, hm, hm'⟩)
      exact hfound.1.unique hfound'.1
  · intro hagree asset_id depth
    rw [hmem]
    constructor
    · intro ⟨start_idx, hstart, node_idx, hnode, hdistance, hlimit⟩
      exact ⟨(hagree start_idx hstart).asset_distance (node_of_index hP hG hstart) hnode hdistance
        hlimit, hlimit⟩
    · intro ⟨hdistance, hlimit⟩
      obtain ⟨i, -, hi, -⟩ := hdistance.path
      obtain ⟨start_idx, hstart, hnode⟩ := indexed_of_node hP hG hi
      obtain ⟨j, m, hle, hj, hm⟩ :=
        (hagree start_idx hstart).nearest asset_id depth hdistance.pos hlimit hdistance.path
      -- no node of the asset is nearer than the asset
      have hge := hdistance.least m hm.pos ⟨start_idx, j, hnode, hj, hm.steps⟩
      obtain rfl : m = depth := le_antisymm hle hge
      exact ⟨start_idx, hstart, j, hj, hm, hlimit⟩

/-! ### Refreshing an asset on a longer path -/

def asset_one : AssetId := ⟨1⟩

def asset_two : AssetId := ⟨2⟩

def asset_three : AssetId := ⟨3⟩

/-- Two assets that depend on each other. -/
def two_cycle : LineageGraph list_graphs where
  graph := ⟨[table_node asset_one "raw_orders", table_node asset_two "orders"],
    [(1, 0, ⟨"data"⟩), (0, 1, ⟨"data"⟩)], by decide⟩
  asset_to_node :=
    Function.update (Function.update (fun _ => none) asset_one (some 0)) asset_two (some 1)

theorem two_cycle_reachable : Reachable (lineage_system list_graphs) two_cycle :=
  ⟨_, .step (.add_edge asset_two asset_one ⟨"data"⟩)
    (.step (.add_edge asset_one asset_two ⟨"data"⟩)
      (.step (.add_node (table_node asset_two "orders"))
        (.step (.add_node (table_node asset_one "raw_orders")) (.init rfl) rfl) rfl) rfl) rfl⟩

theorem two_cycle_one_node {i j : Nat} {asset_id : AssetId} (hi : two_cycle.NodeOf i asset_id)
    (hj : two_cycle.NodeOf j asset_id) : i = j := by
  have hP := DiGraph.lists_lawful LineageNode LineageEdge (2 ^ 32 - 1)
  obtain ⟨node, hi, rfl⟩ := hi
  obtain ⟨node', hj, heq⟩ := hj
  have hlt := (hP.node_weight_isSome _ i).mp (Option.isSome_iff_exists.mpr ⟨node, hi⟩)
  have hlt' := (hP.node_weight_isSome _ j).mp (Option.isSome_iff_exists.mpr ⟨node', hj⟩)
  change i < 2 at hlt
  change j < 2 at hlt'
  obtain rfl | rfl : i = 0 ∨ i = 1 := by omega
  · obtain rfl | rfl : j = 0 ∨ j = 1 := by omega
    · rfl
    · cases hi
      cases hj
      cases heq
  · obtain rfl | rfl : j = 0 ∨ j = 1 := by omega
    · cases hi
      cases hj
      cases heq
    · rfl

theorem two_cycle_traversed :
    ∃ result, two_cycle.traverse_with_depth .outgoing none asset_one = some result ∧
      result.Pairwise (fun a b => a.2 ≤ b.2) ∧
      ∀ asset_id depth, (asset_id, depth) ∈ result ↔
        two_cycle.AssetDistance .outgoing asset_one asset_id depth ∧
          ∀ limit ∈ (none : Option Nat), depth ≤ limit := by
  have hP := DiGraph.lists_lawful LineageNode LineageEdge (2 ^ 32 - 1)
  have hsimple : two_cycle.NoParallelEdges := fun i d =>
    DiGraph.ListGraph.nodup_neighbors_directed (by decide)
  obtain ⟨result, hresult, hsorted, hiff⟩ := traverses_exactly_iff hP two_cycle_reachable hsimple
    .outgoing none asset_one
  refine ⟨result, hresult, hsorted, hiff.mpr fun start_idx hstart => ?_⟩
  exact nodes_agree_of_one_node (node_of_index hP two_cycle_reachable hstart)
    fun i j asset_id => two_cycle_one_node

/-- Asset `2` has been refreshed, and is now also downstream of asset `3`. -/
def refreshed : LineageGraph list_graphs where
  graph := ⟨[table_node asset_one "raw_orders", table_node asset_two "orders",
      table_node asset_two "orders", table_node asset_three "customers"],
    [(3, 2, ⟨"data"⟩), (0, 3, ⟨"data"⟩), (0, 1, ⟨"data"⟩)], by decide⟩
  asset_to_node :=
    Function.update (Function.update (Function.update (Function.update (fun _ => none)
      asset_one (some 0)) asset_two (some 1)) asset_two (some 2)) asset_three (some 3)

theorem refreshed_reachable : Reachable (lineage_system list_graphs) refreshed :=
  ⟨_, .step (.add_edge asset_three asset_two ⟨"data"⟩)
    (.step (.add_edge asset_one asset_three ⟨"data"⟩)
      (.step (.add_node (table_node asset_three "customers"))
        (.step (.add_node (table_node asset_two "orders"))
          (.step (.add_edge asset_one asset_two ⟨"data"⟩)
            (.step (.add_node (table_node asset_two "orders"))
              (.step (.add_node (table_node asset_one "raw_orders"))
                (.init rfl) rfl) rfl) rfl) rfl) rfl) rfl) rfl⟩

/-- Asset `2` comes at depth 1 and at depth 2. -/
theorem refreshed_asset_twice :
    ¬ ∀ (P : DiGraph LineageNode LineageEdge) (capacity : Nat), P.Lawful capacity →
      ∀ G : LineageGraph P, Reachable (lineage_system P) G → G.NoParallelEdges →
      ∀ (direction : Direction) (max_depth : Option Nat) (start : AssetId),
      ∃ result, G.traverse_with_depth direction max_depth start = some result ∧
        result.Pairwise (fun a b => a.2 ≤ b.2) ∧
        ∀ asset_id depth, (asset_id, depth) ∈ result ↔
          G.AssetDistance direction start asset_id depth ∧ ∀ limit ∈ max_depth, depth ≤ limit := by
  intro hall
  have hsimple : refreshed.NoParallelEdges := fun i d =>
    DiGraph.ListGraph.nodup_neighbors_directed (by decide)
  obtain ⟨result, hresult, -, hexact⟩ := hall list_graphs _ (DiGraph.lists_lawful _ _ _) refreshed
    refreshed_reachable hsimple .outgoing none asset_one
  have hrun : refreshed.traverse_with_depth .outgoing none asset_one =
      some [(asset_three, 1), (asset_two, 1), (asset_two, 2)] := by decide +kernel
  obtain rfl := Option.some.inj (hrun.symm.trans hresult)
  have hdistance := ((hexact asset_two 2).mp (by simp)).1
  have hpath : refreshed.AssetPath .outgoing asset_one asset_two 1 :=
    ⟨0, 1, ⟨_, rfl, rfl⟩, ⟨_, rfl, rfl⟩, 0, rfl, by decide⟩
  have hle := hdistance.least 1 Nat.one_pos hpath
  omega

end assets

end LineageGraph

end Servo
