import Mathlib.Data.List.Chain
import Servo.Framework.SearchTree
import Servo.Lineage.Traversal

/-! # Paths between Assets

    `LineageQuery::path` and `distance`: a breadth-first search from the node
    of one asset, which remembers for each node from where it came, and a walk
    back from the node of the other asset.

    The search goes from node to node, and starts and ends at the nodes that
    the index has for the two assets. An edge of an asset that has been added
    again may be at a node that the search does not come to.
-/

namespace Servo

open BreadthFirst

/-! ### The code -/

/-- What the search of `path` keeps. -/
structure PathSearch where
  visited : List Nat
  queue : List Nat
  parent : Nat → Option Nat

namespace PathSearch

/-- The neighbors that have not been visited are put at the end of the queue. -/
def enqueue (current : Nat) (neighbors : List Nat) (s : PathSearch) : PathSearch :=
  neighbors.foldl (fun s neighbor =>
    if neighbor ∈ s.visited then s
    else {
      visited := neighbor :: s.visited
      parent := Function.update s.parent neighbor (some current)
      queue := s.queue ++ [neighbor] }) s

end PathSearch

namespace LineageGraph

variable {P : DiGraph LineageNode LineageEdge} (G : LineageGraph P)

/-- Reconstruct the path, from its end; `none` is a panic, or more steps than `steps`. -/
def walk_back (parent : Nat → Option Nat) : Nat → Nat → List AssetId → Option (List AssetId)
  | steps, curr, path =>
    match parent curr with
    | none => some path
    | some prev =>
      match steps with
      | 0 => none
      | steps + 1 =>
        (P.node_weight G.graph prev).bind fun node =>
          walk_back parent steps prev (path ++ [node.asset_id])

/-- The loop over the queue; `none` is a panic, or that there are more rounds than `rounds`. -/
def path_loop (to_idx : Nat) : Nat → PathSearch → Option (Option (List AssetId))
  | rounds, s =>
    match s.queue, rounds with
    | [], _ => some none
    | _ :: _, 0 => none
    | current :: queue, rounds + 1 =>
      if current = to_idx then
        (P.node_weight G.graph to_idx).bind fun node =>
          (walk_back G s.parent (P.node_count G.graph) to_idx [node.asset_id]).map fun path =>
            some path.reverse
      else
        path_loop to_idx rounds
          ({ s with queue }.enqueue current (P.neighbors_directed G.graph current .outgoing))

/-- Find the shortest path between two assets. Every round takes another node. -/
def path (source target : AssetId) : Option (Option (List AssetId)) :=
  match G.asset_to_node source with
  | none => some none
  | some from_idx =>
    match G.asset_to_node target with
    | none => some none
    | some to_idx =>
      path_loop G to_idx (P.node_count G.graph) ⟨[from_idx], [from_idx], fun _ => none⟩

/-- Check if there is any path from one asset to another. -/
def is_reachable (source target : AssetId) : Option Bool :=
  (G.path source target).map Option.isSome

/-- Calculate the distance (shortest path length) between two assets. -/
def distance (source target : AssetId) : Option (Option Nat) :=
  (G.path source target).map fun path => path.map fun p => p.length - 1

end LineageGraph

/-! ### The search -/

/-- A neighbor gets its parent when it is visited. -/
theorem PathSearch.enqueue_eq (current : Nat) (neighbors : List Nat) (s : PathSearch) :
    (s.enqueue current neighbors).queue = s.queue ++ (discover s.visited neighbors).1 ∧
      (s.enqueue current neighbors).visited = (discover s.visited neighbors).2 ∧
      ∀ v, (s.enqueue current neighbors).parent v =
        if v ∈ (discover s.visited neighbors).1 then some current else s.parent v := by
  induction neighbors generalizing s with
  | nil => simp [enqueue, discover]
  | cons neighbor neighbors ih =>
    rw [discover]
    by_cases hvisited : neighbor ∈ s.visited
    · -- a neighbour that has been seen keeps its parent
      have hcons : s.enqueue current (neighbor :: neighbors) = s.enqueue current neighbors := by
        unfold enqueue
        rw [List.foldl_cons, if_pos hvisited]
      rw [if_pos hvisited, hcons]
      exact ih s
    · have hcons : s.enqueue current (neighbor :: neighbors) =
          PathSearch.enqueue current neighbors {
            visited := neighbor :: s.visited
            parent := Function.update s.parent neighbor (some current)
            queue := s.queue ++ [neighbor] } := by
        unfold enqueue
        rw [List.foldl_cons, if_neg hvisited]
      rw [if_neg hvisited, hcons]
      obtain ⟨hqueue, hall, hparent⟩ := ih {
        visited := neighbor :: s.visited
        parent := Function.update s.parent neighbor (some current)
        queue := s.queue ++ [neighbor] }
      refine ⟨by rw [hqueue, List.append_assoc, List.singleton_append], hall, ?_⟩
      intro v
      rw [hparent]
      by_cases heq : v = neighbor
      · subst heq
        simp
      · simp [heq]

theorem PathSearch.enqueue_spec (current : Nat) (neighbors : List Nat) (s : PathSearch) :
    ∃ new : List Nat, new.Nodup ∧ (∀ v, v ∈ new ↔ v ∈ neighbors ∧ v ∉ s.visited) ∧
      (s.enqueue current neighbors).queue = s.queue ++ new ∧
      (∀ v, v ∈ (s.enqueue current neighbors).visited ↔ v ∈ s.visited ∨ v ∈ neighbors) ∧
      (∀ v ∈ new, (s.enqueue current neighbors).parent v = some current) ∧
      ∀ v ∉ new, (s.enqueue current neighbors).parent v = s.parent v := by
  obtain ⟨hqueue, hvisited, hparent⟩ := enqueue_eq current neighbors s
  refine ⟨(discover s.visited neighbors).1, nodup_discover _ _, fun v => mem_discover, hqueue,
    ?_, ?_, ?_⟩
  · intro v
    rw [hvisited]
    exact mem_discover_visited
  · intro v hv
    rw [hparent, if_pos hv]
  · intro v hv
    rw [hparent, if_neg hv]

namespace LineageGraph

section walks
variable {P : DiGraph LineageNode LineageEdge} {capacity : Nat} (G : LineageGraph P)

/-- An edge of the graph leads from a node of one asset to a node of the other. -/
def AssetEdge (a b : AssetId) : Prop :=
  ∃ i j, G.NodeOf i a ∧ G.NodeOf j b ∧ j ∈ G.next_nodes .outgoing i

/-- A sequence of assets from one to the other, along the edges of the graph. -/
structure AssetWalk (source target : AssetId) (walk : List AssetId) : Prop where
  head : walk.head? = some source
  last : walk.getLast? = some target
  edges : walk.IsChain G.AssetEdge

/-- What a path query promises: no path if there is none, or else a shortest one. -/
def PathExact (source target : AssetId) : Prop :=
  ∃ found, G.path source target = some found ∧
    (found = none ↔ ∀ walk, ¬ G.AssetWalk source target walk) ∧
    ∀ path ∈ found, G.AssetWalk source target path ∧
      (∀ walk, G.AssetWalk source target walk → path.length ≤ walk.length) ∧
      ∃ edges, path.length = edges + 1 ∧ G.distance source target = some (some edges)

/-- For every path between the assets there is one between their nodes that is not longer. -/
def NodesJoined (source target : AssetId) (from_idx to_idx : Nat) : Prop :=
  ∀ walk, G.AssetWalk source target walk →
    ∃ n, n < walk.length ∧ Steps (G.next_nodes .outgoing) n from_idx to_idx

variable {G} {from_idx to_idx : Nat} {source target : AssetId}

/-- The parents are the path. -/
theorem walk_back_spec {parent : Nat → Option Nat} {d v steps : Nat} {a : AssetId}
    (hsource : G.NodeOf from_idx source)
    (h : Ancestry (G.next_nodes .outgoing) from_idx parent d v) (hv : G.NodeOf v a)
    (hnodes : ∀ i j, j ∈ G.next_nodes .outgoing i → ∃ asset_id, G.NodeOf i asset_id)
    (hsteps : d ≤ steps) (path : List AssetId) :
    ∃ back, G.walk_back parent steps v path = some (path ++ back) ∧ back.length = d ∧
      (a :: back).IsChain (fun x y => G.AssetEdge y x) ∧ (a :: back).getLast? = some source := by
  -- the depth in the tree of parents goes down by one with each step back
  induction d generalizing v a steps path with
  | zero =>
    obtain ⟨rfl, hnone⟩ := h
    have hsame : a = source := by
      obtain ⟨node, hnode, rfl⟩ := hv
      obtain ⟨node', hnode', rfl⟩ := hsource
      rw [hnode] at hnode'
      cases hnode'
      rfl
    refine ⟨[], ?_, rfl, .singleton a, by simp [hsame]⟩
    rw [walk_back, hnone, List.append_nil]
  | succ d ih =>
    obtain ⟨w, hparent, hmem, hrest⟩ := h
    obtain ⟨b, node, hnode, hb⟩ := hnodes w v hmem
    obtain ⟨steps, rfl⟩ := Nat.exists_eq_add_one_of_ne_zero (n := steps) (by omega)
    obtain ⟨back, hback, hlength, hchain, hlast⟩ :=
      @ih w steps b hrest ⟨node, hnode, hb⟩ (by omega) (path ++ [b])
    refine ⟨b :: back, ?_, by simp [hlength], ?_, ?_⟩
    · rw [walk_back, hparent]
      simp only [hnode, Option.bind_some, hb]
      rw [hback, List.append_assoc, List.singleton_append]
    · exact .cons_cons ⟨w, v, ⟨node, hnode, hb⟩, hv, hmem⟩ hchain
    · rw [List.getLast?_cons_cons]
      exact hlast

/-- What a search that has come to its end found: a shortest path, or that there is none. -/
structure Found (G : LineageGraph P) (source target : AssetId) (from_idx to_idx : Nat)
    (found : Option (List AssetId)) : Prop where
  none_found : found = none → ∀ n, ¬ Steps (G.next_nodes .outgoing) n from_idx to_idx
  path_found : ∀ path ∈ found, G.AssetWalk source target path ∧
    ∃ d, path.length = d + 1 ∧ Steps (G.next_nodes .outgoing) d from_idx to_idx ∧
      ∀ n, Steps (G.next_nodes .outgoing) n from_idx to_idx → d ≤ n

/-- The way back from the target, turned around. -/
theorem walk_back_found {parent : Nat → Option Nat} {d steps : Nat}
    (hsource : G.NodeOf from_idx source) (htarget : G.NodeOf to_idx target)
    (hnodes : ∀ i j, j ∈ G.next_nodes .outgoing i → ∃ asset_id, G.NodeOf i asset_id)
    (h : Ancestry (G.next_nodes .outgoing) from_idx parent d to_idx) (hsteps : d ≤ steps)
    (hleast : ∀ n, Steps (G.next_nodes .outgoing) n from_idx to_idx → d ≤ n) :
    ∃ path, G.walk_back parent steps to_idx [target] = some path ∧
      G.Found source target from_idx to_idx (some path.reverse) := by
  obtain ⟨back, hback, hlength, hchain, hlast⟩ :=
    walk_back_spec hsource h htarget hnodes hsteps [target]
  refine ⟨target :: back, hback, by simp, ?_⟩
  intro path hpath
  obtain rfl : (target :: back).reverse = path := Option.some.inj hpath
  refine ⟨⟨?_, ?_, List.isChain_reverse.mpr hchain⟩, d, by simp [hlength], h.steps, hleast⟩
  · rw [List.head?_reverse]
    exact hlast
  · rw [List.getLast?_reverse]
    rfl

theorem path_loop_empty {rounds : Nat} {s : PathSearch} (h : s.queue = []) :
    G.path_loop to_idx rounds s = some none := by
  rw [path_loop.eq_def]
  simp [h]

theorem path_loop_front {rounds current : Nat} {s : PathSearch} {queue : List Nat}
    (h : s.queue = current :: queue) :
    G.path_loop to_idx (rounds + 1) s =
      if current = to_idx then
        (P.node_weight G.graph to_idx).bind fun node =>
          (walk_back G s.parent (P.node_count G.graph) to_idx [node.asset_id]).map fun path =>
            some path.reverse
      else
        path_loop G to_idx rounds
          ({ s with queue }.enqueue current (P.neighbors_directed G.graph current .outgoing)) := by
  rw [path_loop.eq_def]
  simp [h]

/-- The queue is empty, and the target has not been found. -/
theorem Found.none_of_missed {visited : Nat → Prop} {parent : Nat → Option Nat}
    {done : List (Nat × Nat)} (hne : to_idx ≠ from_idx)
    (h : TreeInv (G.next_nodes .outgoing) from_idx visited parent done [])
    (hmissed : ∀ p ∈ done, p.1 ≠ to_idx) : G.Found source target from_idx to_idx none := by
  refine ⟨?_, by simp⟩
  intro _ n hsteps
  rcases h.reached hsteps with heq | ⟨d, hd⟩
  · exact hne heq
  · exact hmissed _ hd rfl

section search
variable (hP : P.Lawful capacity)
include hP

theorem node_of_next {i j : Nat} (h : j ∈ G.next_nodes .outgoing i) :
    ∃ asset_id, G.NodeOf i asset_id := by
  obtain ⟨node, hnode⟩ := Option.isSome_iff_exists.mp
    ((hP.node_weight_isSome _ _).mpr (hP.neighbors_lt _ _ _ _ h).1)
  exact ⟨node.asset_id, node, hnode, rfl⟩

theorem NodeOf.lt {i : Nat} {a : AssetId} (h : G.NodeOf i a) : i < P.node_count G.graph := by
  obtain ⟨node, hnode, -⟩ := h
  exact (hP.node_weight_isSome _ i).mp (Option.isSome_iff_exists.mpr ⟨node, hnode⟩)

/-- The root and the nodes that have come into the queue are different nodes. -/
theorem tree_length_lt {visited : Nat → Prop} {parent : Nat → Option Nat}
    {done queue : List (Nat × Nat)}
    (h : TreeInv (G.next_nodes .outgoing) from_idx visited parent done queue)
    (hsource : G.NodeOf from_idx source) :
    done.length + queue.length < P.node_count G.graph := by
  have hroot : from_idx ∉ (done ++ queue).map Prod.fst := h.inv.fresh from_idx rfl
  have hnodup : (from_idx :: (done ++ queue).map Prod.fst).Nodup :=
    List.nodup_cons.mpr ⟨hroot, h.inv.nodup⟩
  have hsubset : from_idx :: (done ++ queue).map Prod.fst ⊆ List.range (P.node_count G.graph) := by
    intro v hv
    rw [List.mem_range]
    rcases List.mem_cons.mp hv with rfl | hv
    · exact NodeOf.lt hP hsource
    · obtain ⟨p, hp, rfl⟩ := List.mem_map.mp hv
      obtain ⟨n, hn⟩ := Nat.exists_eq_succ_of_ne_zero (h.inv.distance p hp).pos.ne'
      have hsteps := (h.inv.distance p hp).steps
      rw [hn] at hsteps
      obtain ⟨w, -, hnext⟩ := hsteps
      exact (hP.neighbors_lt _ _ _ _ hnext).2
  have hle := (hnodup.subperm hsubset).length_le
  rw [List.length_range, List.length_cons, List.length_map, List.length_append] at hle
  omega

/-- The rounds after the first, which has looked at the start. -/
theorem path_loop_found (hsource : G.NodeOf from_idx source) (htarget : G.NodeOf to_idx target)
    (hne : to_idx ≠ from_idx) {rounds : Nat} {s : PathSearch} {done queue : List (Nat × Nat)}
    (h : TreeInv (G.next_nodes .outgoing) from_idx (· ∈ s.visited) s.parent done queue)
    (hqueue : s.queue = queue.map Prod.fst) (hmissed : ∀ p ∈ done, p.1 ≠ to_idx)
    (hrounds : P.node_count G.graph ≤ rounds + done.length + 1) :
    ∃ found, G.path_loop to_idx rounds s = some found ∧
      G.Found source target from_idx to_idx found := by
  have hlt := tree_length_lt hP h hsource
  induction rounds generalizing s done queue with
  | zero =>
    -- the rounds are over, so that every node has been taken from the queue
    obtain rfl : queue = [] := List.length_eq_zero_iff.mp (by omega)
    exact ⟨none, path_loop_empty hqueue, .none_of_missed hne h hmissed⟩
  | succ rounds ih =>
    cases queue with
    | nil => exact ⟨none, path_loop_empty hqueue, .none_of_missed hne h hmissed⟩
    | cons node queue =>
      rw [List.map_cons] at hqueue
      rw [List.length_cons] at hlt
      by_cases hto : node.1 = to_idx
      · -- the front of the queue is the target, at its distance
        have hmem : node ∈ done ++ node :: queue := by simp
        have hancestry := h.ancestry node hmem
        have hdistance := h.inv.distance node hmem
        have hdepth := h.depth_le node List.mem_cons_self
        rw [hto] at hancestry hdistance
        have hleast : ∀ n, Steps (G.next_nodes .outgoing) n from_idx to_idx → node.2 ≤ n := by
          intro n hsteps
          apply hdistance.least n _ hsteps
          apply Nat.pos_of_ne_zero
          intro hzero
          subst hzero
          exact hne hsteps.symm
        obtain ⟨path, hpath, hfound⟩ := @walk_back_found P G from_idx to_idx source target
          s.parent node.2 (P.node_count G.graph) hsource htarget (fun i j => node_of_next hP)
          hancestry (by omega) hleast
        refine ⟨some path.reverse, ?_, hfound⟩
        obtain ⟨weight, hweight, hasset⟩ := htarget
        rw [path_loop_front hqueue, if_pos hto, hweight, Option.bind_some, hasset, hpath]
        rfl
      · -- the node is passed, and its new neighbours come into the queue
        obtain ⟨new, hnodup, hnew, hqueue', hvisited, hparent, hkeep⟩ :=
          PathSearch.enqueue_spec node.1 (P.neighbors_directed G.graph node.1 .outgoing)
            { s with queue := queue.map Prod.fst }
        have hlook := h.look hnodup hnew hvisited hparent hkeep
        have hlength : (done ++ [node]).length = done.length + 1 := by simp
        rw [path_loop_front hqueue, if_neg hto]
        apply ih hlook
        · rw [hqueue', List.map_append, map_fst_pair]
        · intro p hp
          rcases List.mem_append.mp hp with hp | hp
          · exact hmissed p hp
          · rw [List.mem_singleton.mp hp]
            exact hto
        · omega
        · exact tree_length_lt hP hlook hsource

/-- **The search from node to node** returns, with a shortest path if there is one. -/
theorem path_found (hsource : G.NodeOf from_idx source) (htarget : G.NodeOf to_idx target)
    (hfrom : G.asset_to_node source = some from_idx) (hto : G.asset_to_node target = some to_idx) :
    ∃ found, G.path source target = some found ∧ G.Found source target from_idx to_idx found := by
  have hlt := NodeOf.lt hP hsource
  obtain ⟨rounds, hrounds⟩ := Nat.exists_eq_add_one_of_ne_zero
    (n := P.node_count G.graph) (by omega)
  unfold path
  simp only [hfrom, hto]
  rw [hrounds, path_loop_front rfl]
  by_cases hsame : from_idx = to_idx
  · -- the start is the target: the first round ends the search
    subst hsame
    obtain ⟨path, hpath, hfound⟩ := @walk_back_found P G from_idx from_idx source target
      (fun _ => none) 0 (P.node_count G.graph) hsource htarget (fun i j => node_of_next hP)
      ⟨rfl, rfl⟩ (Nat.zero_le _) (fun n _ => Nat.zero_le n)
    refine ⟨some path.reverse, ?_, hfound⟩
    obtain ⟨weight, hweight, hasset⟩ := htarget
    rw [if_pos rfl, hweight, Option.bind_some, hasset, hpath]
    rfl
  · obtain ⟨new, hnodup, hnew, hqueue, hvisited, hparent, hkeep⟩ :=
      PathSearch.enqueue_spec from_idx (P.neighbors_directed G.graph from_idx .outgoing)
        ⟨[from_idx], [], fun _ => none⟩
    simp only [List.mem_singleton] at hnew hvisited
    have htree := @TreeInv.start Nat (G.next_nodes .outgoing) from_idx _ _ new hnodup hnew hvisited
      hparent hkeep
    rw [if_neg hsame]
    apply path_loop_found hP hsource htarget (Ne.symm hsame) htree
    · rw [hqueue, map_fst_pair, List.nil_append]
    · simp
    · rw [List.length_nil]
      omega

end search

open LTS LineageCalls

/-- **Path queries are exact** if and only if the nodes of the two assets are joined as closely as
    the assets are. -/
theorem path_exact_iff (hP : P.Lawful capacity) (hG : Reachable (lineage_system P) G)
    (hfrom : G.asset_to_node source = some from_idx) (hto : G.asset_to_node target = some to_idx) :
    G.PathExact source target ↔ G.NodesJoined source target from_idx to_idx := by
  have hsource := node_of_index hP hG hfrom
  have htarget := node_of_index hP hG hto
  obtain ⟨found, hrun, hfound⟩ := path_found hP hsource htarget hfrom hto
  constructor
  · intro h walk hwalk
    obtain ⟨found', hrun', hnone, hpath⟩ := h
    obtain rfl := Option.some.inj (hrun.symm.trans hrun')
    cases hcase : found with
    | none => exact absurd hwalk (hnone.mp hcase walk)
    | some path =>
      obtain ⟨-, d, hlength, hsteps, -⟩ := hfound.path_found path hcase
      have hle := (hpath path hcase).2.1 walk hwalk
      exact ⟨d, by omega, hsteps⟩
  · intro h
    refine ⟨found, hrun, ⟨?_, ?_⟩, ?_⟩
    · intro hnone walk hwalk
      obtain ⟨n, -, hsteps⟩ := h walk hwalk
      exact hfound.none_found hnone n hsteps
    · intro hnone
      cases hcase : found with
      | none => rfl
      | some path => exact absurd (hfound.path_found path hcase).1 (hnone path)
    · intro path hcase
      obtain ⟨hwalk, d, hlength, -, hleast⟩ := hfound.path_found path hcase
      refine ⟨hwalk, ?_, d, hlength, ?_⟩
      · intro walk hwalk'
        obtain ⟨n, hlt, hsteps⟩ := h walk hwalk'
        have hle := hleast n hsteps
        omega
      · have hedges : path.length - 1 = d := by omega
        rw [distance, hrun, hcase, Option.map_some, Option.map_some, hedges]

/-- Assets that have one node each. -/
theorem nodes_joined_of_one_node (hsource : G.NodeOf from_idx source)
    (htarget : G.NodeOf to_idx target)
    (hone : ∀ i j asset_id, G.NodeOf i asset_id → G.NodeOf j asset_id → i = j) :
    G.NodesJoined source target from_idx to_idx := by
  intro walk hwalk
  obtain ⟨hhead, hlast, hedges⟩ := hwalk
  induction walk generalizing source from_idx with
  | nil => cases hhead
  | cons a walk ih =>
    obtain rfl : a = source := Option.some.inj hhead
    cases walk with
    | nil =>
      obtain rfl : a = target := Option.some.inj hlast
      exact ⟨0, Nat.one_pos, hone from_idx to_idx a hsource htarget⟩
    | cons b walk =>
      rw [List.isChain_cons_cons] at hedges
      obtain ⟨⟨i, j, hi, hj, hmem⟩, hrest⟩ := hedges
      rw [List.getLast?_cons_cons] at hlast
      obtain ⟨n, hlt, hsteps⟩ := ih hj rfl hlast hrest
      -- the edge starts at the node where the walk is, since the asset has no other
      obtain rfl := hone i from_idx a hi hsource
      exact ⟨n + 1, Nat.succ_lt_succ hlt, steps_cons hmem hsteps⟩

theorem two_cycle_path : two_cycle.PathExact asset_two asset_one := by
  have hP := DiGraph.lists_lawful LineageNode LineageEdge (2 ^ 32 - 1)
  have hfrom : two_cycle.asset_to_node asset_two = some 1 := rfl
  have hto : two_cycle.asset_to_node asset_one = some 0 := rfl
  apply (path_exact_iff hP two_cycle_reachable hfrom hto).mpr
  exact nodes_joined_of_one_node (node_of_index hP two_cycle_reachable rfl)
    (node_of_index hP two_cycle_reachable rfl) fun i j asset_id => two_cycle_one_node

/-- There is an edge from asset `1` to asset `2`, but the path goes through asset `3`. -/
theorem refreshed_path_too_long :
    ¬ ∀ (P : DiGraph LineageNode LineageEdge) (capacity : Nat), P.Lawful capacity →
      ∀ G : LineageGraph P, Reachable (lineage_system P) G →
      ∀ source target, (G.asset_to_node source).isSome → (G.asset_to_node target).isSome →
        G.PathExact source target := by
  intro hall
  obtain ⟨found, hrun, -, hexact⟩ := hall list_graphs _ (DiGraph.lists_lawful _ _ _) refreshed
    refreshed_reachable asset_one asset_two rfl rfl
  have hpath : refreshed.path asset_one asset_two =
      some (some [asset_one, asset_three, asset_two]) := by decide +kernel
  obtain rfl := Option.some.inj (hpath.symm.trans hrun)
  have hedge : refreshed.AssetEdge asset_one asset_two :=
    ⟨0, 1, ⟨_, rfl, rfl⟩, ⟨_, rfl, rfl⟩, by decide⟩
  have hwalk : refreshed.AssetWalk asset_one asset_two [asset_one, asset_two] :=
    ⟨rfl, rfl, .cons_cons hedge (.singleton _)⟩
  have hle := (hexact _ rfl).2.1 _ hwalk
  exact absurd hle (by decide)

end walks

end LineageGraph

end Servo
