import Servo.Lineage.Traversal
import Mathlib.Data.Set.Card

/-! # How Often an Asset Is Listed

    `full_lineage` counts what the traversals of both directions list. The
    traversal puts the direct neighbors of the start into its queue as they
    come, once for every edge. Only from there on does it ask whether a node
    has been visited. So a direct neighbor is listed as often as there are
    edges to it, and any other node once.

    An asset that has been added again may be listed once for each of its
    nodes, and what only its older nodes lead to is not listed.
-/

namespace Servo

open BreadthFirst

/-- Full lineage information for an asset. -/
structure LineageInfo where
  asset_id : AssetId
  upstream_count : Nat
  downstream_count : Nat
  upstream_assets : List (AssetId × Nat)
  downstream_assets : List (AssetId × Nat)
  max_upstream_depth : Nat
  max_downstream_depth : Nat
  deriving DecidableEq

namespace LineageGraph

variable {P : DiGraph LineageNode LineageEdge} {capacity : Nat} (G : LineageGraph P)
  (direction : Direction) (max_depth : Option Nat)

/-- Get full lineage information for an asset. -/
def full_lineage (asset_id : AssetId) : Option LineageInfo := do
  let upstream ← ancestors_with_depth G asset_id none
  let downstream ← descendants_with_depth G asset_id none
  return {
    asset_id
    upstream_count := upstream.length
    downstream_count := downstream.length
    upstream_assets := upstream
    downstream_assets := downstream
    max_upstream_depth := ((upstream.map Prod.snd).max?).getD 0
    max_downstream_depth := ((downstream.map Prod.snd).max?).getD 0 }

/-! ### The nodes that are listed -/

def asset_of (node_idx : Nat) : Option AssetId :=
  (P.node_weight G.graph node_idx).map (·.asset_id)

/-- Not deeper than the limit. -/
def within (node : Nat × Nat) : Bool := max_depth.all (node.2 ≤ ·)

/-- The entries of the result for these nodes of the queue. -/
def Entries (nodes : List (Nat × Nat)) (entries : List (AssetId × Nat)) : Prop :=
  entries.map (fun entry => (some entry.1, entry.2)) =
    (nodes.filter (within max_depth)).map fun node => (G.asset_of node.1, node.2)

/-- The nodes that have not been visited. -/
def unvisited (visited : List Nat) : List Nat :=
  (List.range (P.node_count G.graph)).filter (· ∉ visited)

/-- A node that a path of at least one step leads to. -/
def ReachedFrom (start_idx node_idx : Nat) : Prop :=
  ∃ n, 0 < n ∧ Steps (G.next_nodes direction) n start_idx node_idx

variable {G direction max_depth}

theorem nodeOf_iff {node_idx : Nat} {asset_id : AssetId} :
    G.NodeOf node_idx asset_id ↔ G.asset_of node_idx = some asset_id := by
  simp [NodeOf, asset_of]

/-- What is visited for the first time is no longer unvisited. -/
theorem unvisited_length {visited visited' new : List Nat} (hnodup : new.Nodup)
    (hlt : ∀ v ∈ new, v < P.node_count G.graph) (hfresh : ∀ v ∈ new, v ∉ visited)
    (hvisited : ∀ v, v ∈ visited → v ∈ visited') (hnew : ∀ v ∈ new, v ∈ visited') :
    (G.unvisited visited').length + new.length ≤ (G.unvisited visited).length := by
  have hmem : ∀ {l : List Nat} {v : Nat}, v ∈ G.unvisited l ↔
      v < P.node_count G.graph ∧ v ∉ l := by
    intro l v
    simp [unvisited]
  have happend : (G.unvisited visited' ++ new).Nodup := by
    rw [List.nodup_append]
    refine ⟨List.nodup_range.filter _, hnodup, ?_⟩
    intro v hv w hw heq
    subst heq
    exact (hmem.mp hv).2 (hnew v hw)
  have hsubset : G.unvisited visited' ++ new ⊆ G.unvisited visited := by
    intro v hv
    rcases List.mem_append.mp hv with hv | hv
    · obtain ⟨hcount, hnot⟩ := hmem.mp hv
      exact hmem.mpr ⟨hcount, fun h => hnot (hvisited v h)⟩
    · exact hmem.mpr ⟨hlt v hv, hfresh v hv⟩
  have hle := (happend.subperm hsubset).length_le
  rwa [List.length_append] at hle

theorem Entries.skip {node : Nat × Nat} {nodes : List (Nat × Nat)}
    {entries : List (AssetId × Nat)} (h : G.Entries max_depth nodes entries)
    (hwithin : within max_depth node = false) : G.Entries max_depth (node :: nodes) entries := by
  unfold Entries
  rw [List.filter_cons_of_neg (by simp [hwithin])]
  exact h

theorem Entries.push {node : Nat × Nat} {nodes : List (Nat × Nat)}
    {entries : List (AssetId × Nat)} {asset_id : AssetId} (h : G.Entries max_depth nodes entries)
    (hwithin : within max_depth node = true) (hasset : G.asset_of node.1 = some asset_id) :
    G.Entries max_depth (node :: nodes) ((asset_id, node.2) :: entries) := by
  unfold Entries
  rw [List.filter_cons_of_pos hwithin, List.map_cons, List.map_cons, hasset]
  exact congrArg _ h

/-- What a run of the loop adds to the queue, and what it lists. `R` holds of the nodes in the
    queue, and with a node of its neighbors. -/
structure Listing (G : LineageGraph P) (direction : Direction) (max_depth : Option Nat)
    (R : Nat → Prop) (queue : List (Nat × Nat)) (visited : List Nat) (later : List (Nat × Nat))
    (entries : List (AssetId × Nat)) : Prop where
  nodup : (later.map Prod.fst).Nodup
  fresh : ∀ v ∈ later.map Prod.fst, v ∉ visited
  reached : ∀ v ∈ later.map Prod.fst, R v
  entries : G.Entries max_depth (queue ++ later) entries
  /-- Without a limit, the neighbors of what comes into the queue come into it. -/
  closed : max_depth = none → ∀ v ∈ (queue ++ later).map Prod.fst,
    ∀ w ∈ G.next_nodes direction v, w ∈ visited ∨ w ∈ later.map Prod.fst

theorem traverse_loop_listing (hP : P.Lawful capacity) {R : Nat → Prop}
    (hR : ∀ v, R v → ∀ w ∈ G.next_nodes direction v, R w)
    (hlt : ∀ v, R v → v < P.node_count G.graph) {rounds : Nat} {queue : List (Nat × Nat)}
    {visited : List Nat} {result : List (AssetId × Nat)} (hqueue : ∀ p ∈ queue, R p.1)
    (hrounds : queue.length + (G.unvisited visited).length ≤ rounds) :
    ∃ later entries,
      G.traverse_loop direction max_depth rounds queue visited result = some (result ++ entries) ∧
        G.Listing direction max_depth R queue visited later entries := by
  induction rounds generalizing queue visited result with
  | zero =>
    obtain rfl : queue = [] := List.length_eq_zero_iff.mp (by omega)
    refine ⟨[], [], by simp [traverse_loop], ⟨by simp, by simp, by simp, rfl, by simp⟩⟩
  | succ rounds ih =>
    cases queue with
    | nil => exact ⟨[], [], by simp [traverse_loop], ⟨by simp, by simp, by simp, rfl, by simp⟩⟩
    | cons node queue =>
      obtain ⟨node_idx, depth⟩ := node
      have hnode : R node_idx := hqueue (node_idx, depth) List.mem_cons_self
      have hrest : ∀ p ∈ queue, R p.1 := fun p hp => hqueue p (List.mem_cons_of_mem _ hp)
      rw [List.length_cons] at hrounds
      by_cases hwithin : within max_depth (node_idx, depth) = true
      · have hany : max_depth.any (· < depth) = false := by
          cases max_depth <;> simp_all [within]
        obtain ⟨node, hweight⟩ := Option.isSome_iff_exists.mp
          ((hP.node_weight_isSome _ _).mpr (hlt node_idx hnode))
        have hasset : G.asset_of node_idx = some node.asset_id := by
          simp [asset_of, hweight]
        by_cases hlook : max_depth.all (depth < ·) = true
        · obtain ⟨new, hnodup, hnew, henqueued, hvisited⟩ := enqueue_neighbors_spec (depth + 1)
            (P.neighbors_directed G.graph node_idx direction) queue visited
          obtain ⟨enqueued, visited', hfound⟩ : ∃ enqueued visited',
              enqueue_neighbors (depth + 1) (P.neighbors_directed G.graph node_idx direction)
                (queue, visited) = (enqueued, visited') := ⟨_, _, rfl⟩
          rw [hfound] at henqueued hvisited
          subst henqueued
          have hreached : ∀ v ∈ new, R v := fun v hv => hR node_idx hnode v ((hnew v).mp hv).1
          have hqueue' : ∀ p ∈ queue ++ new.map fun v => (v, depth + 1), R p.1 := by
            intro p hp
            rcases List.mem_append.mp hp with hp | hp
            · exact hrest p hp
            · obtain ⟨v, hv, rfl⟩ := List.mem_map.mp hp
              exact hreached v hv
          have hunvisited : (G.unvisited visited').length + new.length ≤
              (G.unvisited visited).length :=
            unvisited_length hnodup (fun v hv => hlt v (hreached v hv))
              (fun v hv => ((hnew v).mp hv).2) (fun v hv => (hvisited v).mpr (.inl hv))
              (fun v hv => (hvisited v).mpr (.inr ((hnew v).mp hv).1))
          obtain ⟨later, entries, hloop, hlisting⟩ :=
            @ih (queue ++ new.map fun v => (v, depth + 1)) visited'
              (result ++ [(node.asset_id, depth)]) hqueue'
              (by rw [List.length_append, List.length_map]; omega)
          refine ⟨new.map (fun v => (v, depth + 1)) ++ later, (node.asset_id, depth) :: entries,
            ?_, ?_⟩
          · rw [traverse_loop, hany, hweight]
            simp [hlook, hfound, hloop]
          · have hmap : (new.map (fun v => (v, depth + 1)) ++ later).map Prod.fst =
                new ++ later.map Prod.fst := by
              rw [List.map_append, map_fst_pair]
            refine ⟨?_, ?_, ?_, ?_, ?_⟩
            · rw [hmap, List.nodup_append]
              refine ⟨hnodup, hlisting.nodup, ?_⟩
              intro v hv w hw heq
              subst heq
              exact hlisting.fresh v hw ((hvisited v).mpr (.inr ((hnew v).mp hv).1))
            · intro v hv
              rw [hmap, List.mem_append] at hv
              rcases hv with hv | hv
              · exact ((hnew v).mp hv).2
              · exact fun h => hlisting.fresh v hv ((hvisited v).mpr (.inl h))
            · intro v hv
              rw [hmap, List.mem_append] at hv
              exact hv.elim (hreached v) (hlisting.reached v)
            · rw [List.cons_append, ← List.append_assoc]
              exact hlisting.entries.push hwithin hasset
            · intro hnone v hv w hw
              rw [hmap, List.mem_append]
              have hsplit : v = node_idx ∨
                  v ∈ ((queue ++ new.map fun v => (v, depth + 1)) ++ later).map Prod.fst := by
                simpa [or_assoc] using hv
              have hdone : w ∈ visited' ∨ w ∈ later.map Prod.fst := by
                rcases hsplit with rfl | hv
                · exact .inl ((hvisited w).mpr (.inr hw))
                · exact hlisting.closed hnone v hv w hw
              -- what has been visited meanwhile has come into the queue
              rcases hdone with hdone | hdone
              · by_cases hold : w ∈ visited
                · exact .inl hold
                · have hneighbor := ((hvisited w).mp hdone).resolve_left hold
                  exact .inr (.inl ((hnew w).mpr ⟨hneighbor, hold⟩))
              · exact .inr (.inr hdone)
        · obtain ⟨later, entries, hloop, hlisting⟩ :=
            @ih queue visited (result ++ [(node.asset_id, depth)]) hrest (by omega)
          refine ⟨later, (node.asset_id, depth) :: entries, ?_, ?_⟩
          · rw [traverse_loop, hany, hweight]
            simp [hlook, hloop]
          · refine ⟨hlisting.nodup, hlisting.fresh, hlisting.reached,
              hlisting.entries.push hwithin hasset, ?_⟩
            intro hnone
            rw [hnone] at hlook
            exact absurd rfl hlook
      · have hany : max_depth.any (· < depth) = true := by
          cases max_depth <;> simp_all [within]
        obtain ⟨later, entries, hloop, hlisting⟩ := @ih queue visited result hrest (by omega)
        refine ⟨later, entries, ?_, ?_⟩
        · rw [traverse_loop, if_pos hany, hloop]
        · refine ⟨hlisting.nodup, hlisting.fresh, hlisting.reached,
            hlisting.entries.skip (by simpa using hwithin), ?_⟩
          intro hnone
          rw [hnone] at hwithin
          exact absurd rfl hwithin

section traversal
open LTS LineageCalls
variable {start : AssetId} {start_idx : Nat}

theorem ReachedFrom.next {v w : Nat} (h : G.ReachedFrom direction start_idx v)
    (hw : w ∈ G.next_nodes direction v) : G.ReachedFrom direction start_idx w := by
  obtain ⟨n, hn, hsteps⟩ := h
  exact ⟨n + 1, Nat.succ_pos n, v, hsteps, hw⟩

theorem ReachedFrom.lt (hP : P.Lawful capacity) {v : Nat}
    (h : G.ReachedFrom direction start_idx v) : v < P.node_count G.graph := by
  obtain ⟨n, hn, hsteps⟩ := h
  obtain ⟨m, rfl⟩ := Nat.exists_eq_succ_of_ne_zero hn.ne'
  obtain ⟨w, -, hnext⟩ := hsteps
  exact (hP.neighbors_lt _ _ _ _ hnext).2

/-- The traversal from a node. -/
theorem traverse_with_depth_listing (hP : P.Lawful capacity)
    (hstart : G.asset_to_node start = some start_idx) :
    ∃ later entries result, G.traverse_with_depth direction max_depth start = some result ∧
      result.Perm entries ∧
      G.Listing direction max_depth (G.ReachedFrom direction start_idx)
        ((G.next_nodes direction start_idx).map (·, 1)) (G.next_nodes direction start_idx) later
        entries := by
  have hqueue : ∀ p ∈ (G.next_nodes direction start_idx).map (·, 1),
      G.ReachedFrom direction start_idx p.1 := by
    intro p hp
    obtain ⟨v, hv, rfl⟩ := List.mem_map.mp hp
    exact ⟨1, Nat.one_pos, start_idx, rfl, hv⟩
  have hrounds : ((G.next_nodes direction start_idx).map (·, 1)).length +
      (G.unvisited (G.next_nodes direction start_idx)).length ≤
        (P.neighbors_directed G.graph start_idx direction).length + P.node_count G.graph := by
    have hle := List.length_filter_le (· ∉ G.next_nodes direction start_idx)
      (List.range (P.node_count G.graph))
    rw [List.length_range] at hle
    rw [List.length_map]
    exact Nat.add_le_add_left hle _
  obtain ⟨later, entries, hloop, hlisting⟩ := @traverse_loop_listing P capacity G direction
    max_depth hP (G.ReachedFrom direction start_idx) (fun v hv w hw => hv.next hw)
    (fun v hv => hv.lt hP) _ _ _ [] hqueue hrounds
  rw [List.nil_append] at hloop
  refine ⟨later, entries, entries.insertionSort fun a b => a.2 ≤ b.2, ?_,
    List.perm_insertionSort _ _, hlisting⟩
  unfold traverse_with_depth
  rw [hstart]
  exact congrArg (Option.map _) hloop

/-- The nodes that come into the queue, in that order. -/
theorem Listing.mem_iff {later : List (Nat × Nat)} {entries : List (AssetId × Nat)}
    (h : G.Listing direction none (G.ReachedFrom direction start_idx)
      ((G.next_nodes direction start_idx).map (·, 1)) (G.next_nodes direction start_idx) later
      entries) (v : Nat) :
    v ∈ G.next_nodes direction start_idx ++ later.map Prod.fst ↔
      G.ReachedFrom direction start_idx v := by
  constructor
  · intro hv
    rcases List.mem_append.mp hv with hv | hv
    · exact ⟨1, Nat.one_pos, start_idx, rfl, hv⟩
    · exact h.reached v hv
  · -- the last step of the path leads from a node that has come into the queue before
    intro ⟨n, hn, hsteps⟩
    induction n generalizing v with
    | zero => exact absurd hn (Nat.lt_irrefl 0)
    | succ n ih =>
      obtain ⟨w, hw, hnext⟩ := hsteps
      by_cases hzero : n = 0
      · subst hzero
        obtain rfl : start_idx = w := hw
        exact List.mem_append_left _ hnext
      · have hmem := ih w (Nat.pos_of_ne_zero hzero) hw
        have hclosed := h.closed rfl w (by rwa [List.map_append, map_fst_pair]) v hnext
        exact List.mem_append.mpr hclosed

/-- Each asset comes once if the nodes are different, and so are their assets. -/
theorem Listing.nodup_iff {later : List (Nat × Nat)} {entries : List (AssetId × Nat)}
    (h : G.Listing direction max_depth (G.ReachedFrom direction start_idx)
      ((G.next_nodes direction start_idx).map (·, 1)) (G.next_nodes direction start_idx) later
      entries) :
    (entries.map Prod.fst).Nodup ↔
      (((((G.next_nodes direction start_idx).map (·, 1)) ++ later).filter
        (within max_depth)).map fun node : Nat × Nat => G.asset_of node.1).Nodup := by
  have hassets := congrArg (List.map Prod.fst) h.entries
  rw [List.map_map, List.map_map] at hassets
  have hsome : entries.map (fun entry => some entry.1) = (entries.map Prod.fst).map some := by
    rw [List.map_map]
    rfl
  rw [← List.nodup_map_iff (Option.some_injective AssetId), ← hsome]
  exact iff_of_eq (congrArg List.Nodup hassets)

/-! ### Which assets are listed once -/

/-- The assets that a path of at least one step leads to, from any node of the start. -/
def reachable_assets (G : LineageGraph P) (direction : Direction) (start : AssetId) :
    Set AssetId :=
  {asset_id | ∃ n, 0 < n ∧ G.AssetPath direction start asset_id n}

/-- One edge leads to each direct neighbor, one of the nodes that are reached belongs to each
    asset, and they are reached from the latest node of the start. -/
structure ListsOnce (G : LineageGraph P) (direction : Direction) (start : AssetId)
    (start_idx : Nat) : Prop where
  simple : (G.next_nodes direction start_idx).Nodup
  apart : ∀ i j asset_id, G.ReachedFrom direction start_idx i →
    G.ReachedFrom direction start_idx j → G.NodeOf i asset_id → G.NodeOf j asset_id → i = j
  complete : ∀ asset_id ∈ G.reachable_assets direction start,
    ∃ j, G.ReachedFrom direction start_idx j ∧ G.NodeOf j asset_id

theorem asset_of_isSome (hP : P.Lawful capacity) {v : Nat}
    (h : G.ReachedFrom direction start_idx v) : ∃ asset_id, G.NodeOf v asset_id := by
  obtain ⟨node, hnode⟩ := Option.isSome_iff_exists.mp
    ((hP.node_weight_isSome _ _).mpr (h.lt hP))
  exact ⟨node.asset_id, node, hnode, rfl⟩

/-- Then each asset comes once, whatever the limit is. -/
theorem nodup_of_simple (hP : P.Lawful capacity) (hstart : G.asset_to_node start = some start_idx)
    (hsimple : (G.next_nodes direction start_idx).Nodup)
    (hapart : ∀ i j asset_id, G.ReachedFrom direction start_idx i →
      G.ReachedFrom direction start_idx j → G.NodeOf i asset_id → G.NodeOf j asset_id → i = j) :
    ∃ result, G.traverse_with_depth direction max_depth start = some result ∧
      (result.map Prod.fst).Nodup := by
  obtain ⟨later, entries, result, hresult, hperm, hlisting⟩ :=
    @traverse_with_depth_listing P capacity G direction max_depth start start_idx hP hstart
  refine ⟨result, hresult, (hperm.map _).nodup_iff.mpr (hlisting.nodup_iff.mpr ?_)⟩
  have hnodes :
      ((((G.next_nodes direction start_idx).map (·, 1)) ++ later).map Prod.fst).Nodup := by
    rw [List.map_append, map_fst_pair, List.nodup_append]
    refine ⟨hsimple, hlisting.nodup, ?_⟩
    intro v hv w hw heq
    subst heq
    exact hlisting.fresh v hw hv
  have hreached : ∀ p ∈ ((G.next_nodes direction start_idx).map (·, 1)) ++ later,
      G.ReachedFrom direction start_idx p.1 := by
    intro p hp
    rcases List.mem_append.mp hp with hp | hp
    · obtain ⟨v, hv, rfl⟩ := List.mem_map.mp hp
      exact ⟨1, Nat.one_pos, start_idx, rfl, hv⟩
    · exact hlisting.reached p.1 (List.mem_map_of_mem hp)
  refine List.Nodup.map_on ?_ ((List.Nodup.of_map _ hnodes).filter _)
  intro p hp q hq heq
  have hp' := List.mem_of_mem_filter hp
  have hq' := List.mem_of_mem_filter hq
  -- two entries of one asset are one node, and the nodes are different
  obtain ⟨asset_id, hasset⟩ := asset_of_isSome hP (hreached p hp')
  have hsame := hapart p.1 q.1 asset_id (hreached p hp') (hreached q hq') hasset
    (nodeOf_iff.mpr (heq.symm.trans (nodeOf_iff.mp hasset)))
  exact List.inj_on_of_nodup_map hnodes hp' hq' hsame

/-- Without a limit, all nodes that are reached are listed. -/
theorem Listing.assets_eq {later : List (Nat × Nat)} {entries : List (AssetId × Nat)}
    (h : G.Listing direction none (G.ReachedFrom direction start_idx)
      ((G.next_nodes direction start_idx).map (·, 1)) (G.next_nodes direction start_idx) later
      entries) :
    (entries.map Prod.fst).map some =
      (G.next_nodes direction start_idx ++ later.map Prod.fst).map G.asset_of := by
  have hassets := congrArg (List.map Prod.fst) h.entries
  have hall : ∀ nodes : List (Nat × Nat), nodes.filter (within none) = nodes := by
    intro nodes
    simp [within]
  have hnodes : G.next_nodes direction start_idx ++ later.map Prod.fst =
      (((G.next_nodes direction start_idx).map (·, 1)) ++ later).map Prod.fst := by
    rw [List.map_append, map_fst_pair]
  rw [hall, List.map_map, List.map_map] at hassets
  rw [hnodes, List.map_map, List.map_map]
  exact hassets

/-- And each asset comes once only then. -/
theorem simple_of_nodup {later : List (Nat × Nat)} {entries : List (AssetId × Nat)}
    (h : G.Listing direction none (G.ReachedFrom direction start_idx)
      ((G.next_nodes direction start_idx).map (·, 1)) (G.next_nodes direction start_idx) later
      entries) (hnodup : (entries.map Prod.fst).Nodup) :
    (G.next_nodes direction start_idx).Nodup ∧ ∀ i j asset_id,
      G.ReachedFrom direction start_idx i → G.ReachedFrom direction start_idx j →
        G.NodeOf i asset_id → G.NodeOf j asset_id → i = j := by
  have hnodes : ((G.next_nodes direction start_idx ++ later.map Prod.fst).map
      G.asset_of).Nodup := by
    rw [← h.assets_eq]
    exact hnodup.map (Option.some_injective _)
  refine ⟨(List.nodup_append.mp (List.Nodup.of_map _ hnodes)).1, ?_⟩
  intro i j asset_id hi hj hnode hnode'
  exact List.inj_on_of_nodup_map hnodes ((h.mem_iff i).mpr hi) ((h.mem_iff j).mpr hj)
    ((nodeOf_iff.mp hnode).trans (nodeOf_iff.mp hnode').symm)

/-- What is listed are the assets of the nodes that are reached. -/
theorem Listing.mem_assets_iff {later : List (Nat × Nat)} {entries : List (AssetId × Nat)}
    (h : G.Listing direction none (G.ReachedFrom direction start_idx)
      ((G.next_nodes direction start_idx).map (·, 1)) (G.next_nodes direction start_idx) later
      entries) (asset_id : AssetId) :
    asset_id ∈ entries.map Prod.fst ↔
      ∃ j, G.ReachedFrom direction start_idx j ∧ G.NodeOf j asset_id := by
  have hsome : asset_id ∈ entries.map Prod.fst ↔
      some asset_id ∈ (entries.map Prod.fst).map some := by
    simp
  rw [hsome, h.assets_eq, List.mem_map]
  constructor
  · intro hmem
    obtain ⟨j, hj, hasset⟩ := hmem
    exact ⟨j, (h.mem_iff j).mp hj, nodeOf_iff.mpr hasset⟩
  · intro hreached
    obtain ⟨j, hj, hasset⟩ := hreached
    exact ⟨j, (h.mem_iff j).mpr hj, nodeOf_iff.mp hasset⟩

theorem ncard_of_list {l : List AssetId} (h : l.Nodup) : {a | a ∈ l}.ncard = l.length := by
  rw [← List.toFinset_card_of_nodup h, ← Set.ncard_coe_finset, List.coe_toFinset]

theorem finite_reachable_assets (hP : P.Lawful capacity) :
    (G.reachable_assets direction start).Finite := by
  have hsubset : some '' G.reachable_assets direction start ⊆
      G.asset_of '' {i | i < P.node_count G.graph} := by
    intro o ho
    obtain ⟨asset_id, ⟨n, hn, i, j, -, hnode, hsteps⟩, heq⟩ := ho
    exact ⟨j, ReachedFrom.lt hP ⟨n, hn, hsteps⟩, (nodeOf_iff.mp hnode).trans heq⟩
  have hfinite := ((Set.finite_lt_nat (P.node_count G.graph)).image G.asset_of).subset hsubset
  exact hfinite.of_finite_image (Option.some_injective _).injOn

/-- A direction of `full_lineage`: what is listed, and the count. -/
theorem lists_once_direction_iff (hP : P.Lawful capacity) (hG : Reachable (lineage_system P) G)
    (hstart : G.asset_to_node start = some start_idx) :
    ∃ result, G.traverse_with_depth direction none start = some result ∧
      ((result.map Prod.fst).Nodup ∧
          result.length = (G.reachable_assets direction start).ncard ↔
        G.ListsOnce direction start start_idx) := by
  obtain ⟨later, entries, result, hresult, hperm, hlisting⟩ :=
    @traverse_with_depth_listing P capacity G direction none start start_idx hP hstart
  refine ⟨result, hresult, ?_⟩
  have hstart' := node_of_index hP hG hstart
  have hmem : ∀ asset_id, asset_id ∈ result.map Prod.fst ↔
      ∃ j, G.ReachedFrom direction start_idx j ∧ G.NodeOf j asset_id := by
    intro asset_id
    rw [(hperm.map Prod.fst).mem_iff]
    exact hlisting.mem_assets_iff asset_id
  -- what is listed can be reached from the latest node of the start, so from one of its nodes
  have hsubset : {a | a ∈ result.map Prod.fst} ⊆ G.reachable_assets direction start := by
    intro asset_id hasset
    obtain ⟨j, ⟨n, hn, hsteps⟩, hnode⟩ := (hmem asset_id).mp hasset
    exact ⟨n, hn, start_idx, j, hstart', hnode, hsteps⟩
  have hncard : (result.map Prod.fst).Nodup →
      {a | a ∈ result.map Prod.fst}.ncard = result.length := by
    intro hnodup
    rw [ncard_of_list hnodup, List.length_map]
  constructor
  · intro h
    obtain ⟨hnodup, hcount⟩ := h
    obtain ⟨hsimple, hapart⟩ := simple_of_nodup hlisting ((hperm.map _).nodup_iff.mp hnodup)
    refine ⟨hsimple, hapart, ?_⟩
    intro asset_id hasset
    -- as many assets are listed as there are to list, so that none is missing
    have hsame : {a | a ∈ result.map Prod.fst} = G.reachable_assets direction start := by
      apply Set.eq_of_subset_of_ncard_le hsubset _ (finite_reachable_assets hP)
      rw [hncard hnodup, hcount]
    exact (hmem asset_id).mp (hsame.symm.subset hasset)
  · intro h
    obtain ⟨result', hresult', hnodup⟩ :=
      @nodup_of_simple P capacity G direction none start start_idx hP hstart h.simple h.apart
    obtain rfl : result = result' := Option.some.inj (hresult.symm.trans hresult')
    refine ⟨hnodup, ?_⟩
    have hsame : {a | a ∈ result.map Prod.fst} = G.reachable_assets direction start := by
      apply Set.Subset.antisymm hsubset
      intro asset_id hasset
      exact (hmem asset_id).mpr (h.complete asset_id hasset)
    rw [← hncard hnodup, hsame]

/-- An asset that is not in the graph has no lineage. -/
theorem reachable_assets_of_none (hP : P.Lawful capacity) (hG : Reachable (lineage_system P) G)
    (hstart : G.asset_to_node start = none) : G.reachable_assets direction start = ∅ := by
  apply Set.eq_empty_of_forall_notMem
  intro asset_id hasset
  obtain ⟨n, -, i, -, hi, -, -⟩ := hasset
  obtain ⟨idx, hidx, -⟩ := indexed_of_node hP hG hi
  rw [hstart] at hidx
  cases hidx

/-- What `full_lineage` promises: every list has each asset once, and the counts are those of the
    assets that can be reached. -/
structure FullLineageExact (G : LineageGraph P) (start : AssetId) : Prop where
  listed : ∀ direction max_depth, ∃ result,
    G.traverse_with_depth direction max_depth start = some result ∧
      (result.map Prod.fst).Nodup
  counted : ∃ info, G.full_lineage start = some info ∧
    (info.upstream_assets.map Prod.fst).Nodup ∧ (info.downstream_assets.map Prod.fst).Nodup ∧
    info.upstream_count = (G.reachable_assets .incoming start).ncard ∧
    info.downstream_count = (G.reachable_assets .outgoing start).ncard

/-- **Every asset is listed once** exactly if no two edges lead to one direct neighbor, and the
    assets have not been added again in between. -/
theorem full_lineage_exact_iff (hP : P.Lawful capacity) (hG : Reachable (lineage_system P) G)
    (start : AssetId) :
    G.FullLineageExact start ↔
      ∀ direction, ∀ start_idx ∈ G.asset_to_node start, G.ListsOnce direction start start_idx := by
  cases hstart : G.asset_to_node start with
  | none =>
    have hempty : ∀ direction max_depth,
        G.traverse_with_depth direction max_depth start = some [] := by
      intro direction max_depth
      simp [traverse_with_depth, hstart]
    refine iff_of_true ⟨fun direction max_depth => ⟨[], hempty direction max_depth, by simp⟩, ?_⟩
      (by simp)
    refine ⟨⟨start, 0, 0, [], [], 0, 0⟩, ?_, by simp, by simp, ?_, ?_⟩
    · simp [full_lineage, ancestors_with_depth, descendants_with_depth, hempty]
    · rw [reachable_assets_of_none hP hG hstart, Set.ncard_empty]
    · rw [reachable_assets_of_none hP hG hstart, Set.ncard_empty]
  | some start_idx =>
    obtain ⟨up, hup, hup_iff⟩ :=
      @lists_once_direction_iff P capacity G .incoming start start_idx hP hG hstart
    obtain ⟨down, hdown, hdown_iff⟩ :=
      @lists_once_direction_iff P capacity G .outgoing start start_idx hP hG hstart
    have hinfo : G.full_lineage start = some ⟨start, up.length, down.length, up, down,
        ((up.map Prod.snd).max?).getD 0, ((down.map Prod.snd).max?).getD 0⟩ := by
      simp [full_lineage, ancestors_with_depth, descendants_with_depth, hup, hdown]
    constructor
    · intro h direction idx hidx
      obtain rfl : start_idx = idx := Option.some.inj hidx
      obtain ⟨info, hinfo', hup_once, hdown_once, hup_count, hdown_count⟩ := h.counted
      obtain rfl := Option.some.inj (hinfo.symm.trans hinfo')
      cases direction with
      | incoming => exact hup_iff.mp ⟨hup_once, hup_count⟩
      | outgoing => exact hdown_iff.mp ⟨hdown_once, hdown_count⟩
    · intro h
      have hup_once := hup_iff.mpr (h .incoming start_idx rfl)
      have hdown_once := hdown_iff.mpr (h .outgoing start_idx rfl)
      constructor
      · intro direction max_depth
        have honce := h direction start_idx rfl
        exact nodup_of_simple hP hstart honce.simple honce.apart
      · exact ⟨_, hinfo, hup_once.1, hdown_once.1, hup_once.2, hdown_once.2⟩

theorem lists_once_of_one_node (hsimple : (G.next_nodes direction start_idx).Nodup)
    (hstart : G.NodeOf start_idx start)
    (hone : ∀ i j asset_id, G.NodeOf i asset_id → G.NodeOf j asset_id → i = j) :
    G.ListsOnce direction start start_idx := by
  refine ⟨hsimple, fun i j asset_id _ _ hi hj => hone i j asset_id hi hj, ?_⟩
  intro asset_id hasset
  obtain ⟨n, hn, i, j, hi, hj, hsteps⟩ := hasset
  obtain rfl := hone i start_idx start hi hstart
  exact ⟨j, ⟨n, hn, hsteps⟩, hj⟩

theorem two_cycle_listed_once : two_cycle.FullLineageExact asset_one := by
  have hP := DiGraph.lists_lawful LineageNode LineageEdge (2 ^ 32 - 1)
  apply (full_lineage_exact_iff hP two_cycle_reachable asset_one).mpr
  intro direction start_idx hstart
  have hsimple : (two_cycle.next_nodes direction start_idx).Nodup :=
    DiGraph.ListGraph.nodup_neighbors_directed (by decide)
  exact lists_once_of_one_node hsimple (node_of_index hP two_cycle_reachable hstart)
    fun i j asset_id => two_cycle_one_node

/-- Asset `2` depends on asset `1` in two ways. -/
def two_ways : LineageGraph list_graphs where
  graph := ⟨[table_node asset_one "raw_orders", table_node asset_two "orders"],
    [(0, 1, ⟨"control"⟩), (0, 1, ⟨"data"⟩)], by decide⟩
  asset_to_node :=
    Function.update (Function.update (fun _ => none) asset_one (some 0)) asset_two (some 1)

theorem two_ways_reachable : Reachable (lineage_system list_graphs) two_ways :=
  ⟨_, .step (.add_edge asset_one asset_two ⟨"control"⟩)
    (.step (.add_edge asset_one asset_two ⟨"data"⟩)
      (.step (.add_node (table_node asset_two "orders"))
        (.step (.add_node (table_node asset_one "raw_orders")) (.init rfl) rfl) rfl) rfl) rfl⟩

/-- Asset `2` is listed twice, and counted twice. -/
theorem two_ways_listed_twice :
    ¬ ∀ (P : DiGraph LineageNode LineageEdge) (capacity : Nat), P.Lawful capacity →
      ∀ G : LineageGraph P, Reachable (lineage_system P) G → ∀ start, G.FullLineageExact start := by
  intro hall
  have hexact := hall list_graphs _ (DiGraph.lists_lawful _ _ _) two_ways two_ways_reachable
    asset_one
  obtain ⟨result, hresult, hnodup⟩ := hexact.listed .outgoing none
  have hrun : two_ways.traverse_with_depth .outgoing none asset_one =
      some [(asset_two, 1), (asset_two, 1)] := by decide +kernel
  obtain rfl := Option.some.inj (hrun.symm.trans hresult)
  exact absurd hnodup (by decide)

end traversal

end LineageGraph

end Servo
