import Servo.Framework.BreadthFirst
import Servo.Storage.Metadata

/-! # The Stored Lineage of an Asset

    `PostgresStorage::get_asset_lineage`: a breadth-first search over the rows
    of `asset_dependencies`, in both directions. It has two visited sets, one
    of the assets that have been queued and one of the dependencies that have
    been found, by their unique key.

    The queue holds each asset with its depth. So what has been found when the
    queue is empty are the dependencies of all assets whose distance from the
    start is less than `max_depth`.
-/

namespace Servo

open BreadthFirst

/-! ### The code -/

/-- The answers of `get_asset_dependencies` in one call: PostgreSQL chooses the order of the
    rows. -/
structure LineageReads (db : Metadata) (tenant_id : TenantId) where
  upstream : Uuid → List AssetDependencyModel
  downstream : Uuid → List AssetDependencyModel
  upstream_perm : ∀ id, (upstream id).Perm (db.get_upstream_dependencies tenant_id id)
  downstream_perm : ∀ id, (downstream id).Perm (db.get_downstream_dependencies tenant_id id)

/-- The variables of `get_asset_lineage`. -/
structure LineageQueue where
  visited_assets : List Uuid
  visited_deps : List (Uuid × Uuid × String)
  queue : List (Uuid × Nat)
  lineage : List AssetDependencyModel

namespace LineageQueue

/-- What the loops do with a dependency, and with the asset at its other end. -/
def add (depth : Nat) (s : LineageQueue) (dep : AssetDependencyModel) (next_asset : Uuid) :
    LineageQueue :=
  -- Track unique dependencies by (upstream, downstream, type)
  let s := if dep.unique_key ∈ s.visited_deps then s
    else { s with
      visited_deps := dep.unique_key :: s.visited_deps
      lineage := s.lineage ++ [dep] }
  -- Queue unvisited assets for traversal
  if next_asset ∈ s.visited_assets then s
  else { s with
    visited_assets := next_asset :: s.visited_assets
    queue := s.queue ++ [(next_asset, depth + 1)] }

variable {db : Metadata} {tenant_id : TenantId} (reads : LineageReads db tenant_id)

/-- All dependencies of the current asset, upstream and downstream. -/
def expand (current_id : Uuid) (depth : Nat) (s : LineageQueue) : LineageQueue :=
  let s := (reads.upstream current_id).foldl
    (fun s dep => s.add depth dep dep.upstream_asset_id) s
  (reads.downstream current_id).foldl
    (fun s dep => s.add depth dep dep.downstream_asset_id) s

/-- The loop over the queue; `none` if there are more rounds than `rounds`. -/
def run (max_depth : Nat) : Nat → LineageQueue → Option (List AssetDependencyModel)
  | rounds, s =>
    match s.queue, rounds with
    | [], _ => some s.lineage
    | _ :: _, 0 => none
    | (current_id, depth) :: queue, rounds + 1 =>
      if max_depth ≤ depth then run max_depth rounds { s with queue }
      else run max_depth rounds ({ s with queue }.expand reads current_id depth)

end LineageQueue

/-- `get_asset_lineage`. Every round but the first takes an asset at the end of a dependency, and
    none twice. -/
def LineageReads.get_asset_lineage {db : Metadata} {tenant_id : TenantId}
    (reads : LineageReads db tenant_id) (asset_id : Uuid) (max_depth : Nat) :
    Option (List AssetDependencyModel) :=
  LineageQueue.run reads max_depth (2 * (db.visible_dependencies tenant_id).length + 1)
    ⟨[asset_id], [], [(asset_id, 0)], []⟩

/-! ### What it is to find -/

/-- The assets at the other ends of the dependencies of an asset. -/
def linked (rows : List AssetDependencyModel) (asset_id : Uuid) : List Uuid :=
  (rows.filter (·.downstream_asset_id = asset_id)).map (·.upstream_asset_id) ++
    (rows.filter (·.upstream_asset_id = asset_id)).map (·.downstream_asset_id)

/-- The length of a shortest path between two assets, whichever way the dependencies go. -/
structure UndirectedDistance (rows : List AssetDependencyModel) (start asset_id : Uuid)
    (d : Nat) : Prop where
  steps : Steps (linked rows) d start asset_id
  least : ∀ n, Steps (linked rows) n start asset_id → d ≤ n

namespace LineageQueue

section expand
variable {db : Metadata} {tenant_id : TenantId} {reads : LineageReads db tenant_id}

/-- The dependencies found so far are rows, and `visited_deps` are their keys. -/
structure Collects (rows : List AssetDependencyModel) (s : LineageQueue) : Prop where
  keys : ∀ k, k ∈ s.visited_deps ↔ k ∈ s.lineage.map (·.unique_key)
  nodup : (s.lineage.map (·.unique_key)).Nodup
  rows : ∀ dep ∈ s.lineage, dep ∈ rows

/-- What `expand` goes through: each dependency with the asset at its other end. -/
def links (reads : LineageReads db tenant_id) (current_id : Uuid) :
    List (AssetDependencyModel × Uuid) :=
  (reads.upstream current_id).map (fun dep => (dep, dep.upstream_asset_id)) ++
    (reads.downstream current_id).map (fun dep => (dep, dep.downstream_asset_id))

theorem expand_eq (current_id : Uuid) (depth : Nat) (s : LineageQueue) :
    s.expand reads current_id depth =
      (links reads current_id).foldl (fun s link => s.add depth link.1 link.2) s := by
  rw [links, List.foldl_append, List.foldl_map, List.foldl_map]
  rfl

/-- An asset is put into the queue when it is visited. -/
theorem foldl_add_queue (depth : Nat) (l : List (AssetDependencyModel × Uuid))
    (s : LineageQueue) :
    (l.foldl (fun s link => s.add depth link.1 link.2) s).queue =
        s.queue ++ (discover s.visited_assets (l.map Prod.snd)).1.map (fun v => (v, depth + 1)) ∧
      (l.foldl (fun s link => s.add depth link.1 link.2) s).visited_assets =
        (discover s.visited_assets (l.map Prod.snd)).2 := by
  induction l generalizing s with
  | nil => simp [discover]
  | cons link l ih =>
    obtain ⟨hqueue, hvisited⟩ := ih (s.add depth link.1 link.2)
    rw [List.foldl_cons, hqueue, hvisited, List.map_cons, discover]
    by_cases hseen : link.2 ∈ s.visited_assets
    · rw [if_pos hseen]
      have hadd : (s.add depth link.1 link.2).queue = s.queue ∧
          (s.add depth link.1 link.2).visited_assets = s.visited_assets := by
        by_cases hdep : link.1.unique_key ∈ s.visited_deps <;> simp [add, hdep, hseen]
      rw [hadd.1, hadd.2]
      exact ⟨rfl, rfl⟩
    · rw [if_neg hseen]
      have hadd : (s.add depth link.1 link.2).queue = s.queue ++ [(link.2, depth + 1)] ∧
          (s.add depth link.1 link.2).visited_assets = link.2 :: s.visited_assets := by
        by_cases hdep : link.1.unique_key ∈ s.visited_deps <;> simp [add, hdep, hseen]
      rw [hadd.1, hadd.2]
      simp

/-- A dependency is added to the result if its key is new. -/
theorem add_lineage (depth : Nat) (s : LineageQueue) (dep : AssetDependencyModel)
    (next_asset : Uuid) :
    (s.add depth dep next_asset).lineage =
        (if dep.unique_key ∈ s.visited_deps then s.lineage else s.lineage ++ [dep]) ∧
      (s.add depth dep next_asset).visited_deps =
        (if dep.unique_key ∈ s.visited_deps then s.visited_deps
          else dep.unique_key :: s.visited_deps) := by
  by_cases hdep : dep.unique_key ∈ s.visited_deps <;>
    by_cases hseen : next_asset ∈ s.visited_assets <;> simp [add, hdep, hseen]

variable {rows : List AssetDependencyModel}

theorem Collects.add (hrows : (rows.map (·.unique_key)).Nodup) {s : LineageQueue}
    (h : Collects rows s) {dep : AssetDependencyModel} (hdep : dep ∈ rows) (depth : Nat)
    (next_asset : Uuid) :
    Collects rows (s.add depth dep next_asset) ∧
      ∀ d, d ∈ (s.add depth dep next_asset).lineage ↔ d ∈ s.lineage ∨ d = dep := by
  obtain ⟨hlineage, hdeps⟩ := add_lineage depth s dep next_asset
  by_cases hkey : dep.unique_key ∈ s.visited_deps
  · rw [if_pos hkey] at hlineage hdeps
    refine ⟨⟨?_, ?_, ?_⟩, ?_⟩
    · intro k
      rw [hlineage, hdeps]
      exact h.keys k
    · rw [hlineage]
      exact h.nodup
    · rw [hlineage]
      exact h.rows
    · intro d
      rw [hlineage]
      constructor
      · exact .inl
      · intro hd
        rcases hd with hd | rfl
        · exact hd
        · -- the key belongs to one row only
          obtain ⟨d', hd', heq⟩ := List.mem_map.mp ((h.keys _).mp hkey)
          obtain rfl := List.inj_on_of_nodup_map hrows (h.rows d' hd') hdep heq
          exact hd'
  · rw [if_neg hkey] at hlineage hdeps
    refine ⟨⟨?_, ?_, ?_⟩, ?_⟩
    · intro k
      rw [hlineage, hdeps, List.map_append, List.mem_append, List.mem_cons, h.keys k]
      simp [or_comm]
    · rw [hlineage, List.map_append, List.nodup_append]
      refine ⟨h.nodup, by simp, ?_⟩
      intro k hk k' hk' heq
      obtain rfl : k' = dep.unique_key := by simpa using hk'
      exact hkey ((h.keys _).mpr (heq ▸ hk))
    · intro d hd
      rw [hlineage, List.mem_append, List.mem_singleton] at hd
      rcases hd with hd | rfl
      · exact h.rows d hd
      · exact hdep
    · intro d
      rw [hlineage, List.mem_append, List.mem_singleton]

theorem Collects.foldl_add (hrows : (rows.map (·.unique_key)).Nodup) (depth : Nat)
    (l : List (AssetDependencyModel × Uuid)) {s : LineageQueue} (h : Collects rows s)
    (hl : ∀ link ∈ l, link.1 ∈ rows) :
    Collects rows (l.foldl (fun s link => s.add depth link.1 link.2) s) ∧
      ∀ d, d ∈ (l.foldl (fun s link => s.add depth link.1 link.2) s).lineage ↔
        d ∈ s.lineage ∨ d ∈ l.map Prod.fst := by
  induction l generalizing s with
  | nil => exact ⟨h, fun d => by simp⟩
  | cons link l ih =>
    obtain ⟨hadd, hmem⟩ := h.add hrows (hl link List.mem_cons_self) depth link.2
    obtain ⟨hcollects, hlineage⟩ := ih hadd fun link' h' => hl link' (List.mem_cons_of_mem _ h')
    refine ⟨hcollects, ?_⟩
    intro d
    rw [List.foldl_cons, hlineage, hmem, List.map_cons, List.mem_cons, or_assoc]

end expand

/-! ### The search -/

section search
variable {db : Metadata} {tenant_id : TenantId} {reads : LineageReads db tenant_id}
  {max_depth : Nat} {start : Uuid}

theorem mem_upstream (id : Uuid) (dep : AssetDependencyModel) :
    dep ∈ reads.upstream id ↔
      dep ∈ db.visible_dependencies tenant_id ∧ dep.downstream_asset_id = id := by
  rw [(reads.upstream_perm id).mem_iff, Metadata.get_upstream_dependencies, List.mem_filter,
    decide_eq_true_iff]

theorem mem_downstream (id : Uuid) (dep : AssetDependencyModel) :
    dep ∈ reads.downstream id ↔
      dep ∈ db.visible_dependencies tenant_id ∧ dep.upstream_asset_id = id := by
  rw [(reads.downstream_perm id).mem_iff, Metadata.get_downstream_dependencies, List.mem_filter,
    decide_eq_true_iff]

theorem mem_links_fst (id : Uuid) (dep : AssetDependencyModel) :
    dep ∈ (links reads id).map Prod.fst ↔
      dep ∈ db.visible_dependencies tenant_id ∧ dep.touches id := by
  have hfst : (links reads id).map Prod.fst = reads.upstream id ++ reads.downstream id := by
    simp [links, Function.comp_def]
  rw [hfst, List.mem_append, mem_upstream, mem_downstream, AssetDependencyModel.touches,
    Bool.or_eq_true, decide_eq_true_iff, decide_eq_true_iff]
  tauto

theorem mem_links_snd (id v : Uuid) :
    v ∈ (links reads id).map Prod.snd ↔ v ∈ linked (db.visible_dependencies tenant_id) id := by
  have hsnd : (links reads id).map Prod.snd =
      (reads.upstream id).map (·.upstream_asset_id) ++
        (reads.downstream id).map (·.downstream_asset_id) := by
    simp [links, Function.comp_def]
  rw [hsnd]
  exact (((reads.upstream_perm id).map _).append ((reads.downstream_perm id).map _)).mem_iff

/-- What holds before each round but the first; `done` are the assets that have been taken from
    the queue. -/
structure Explored (reads : LineageReads db tenant_id) (max_depth : Nat) (start : Uuid)
    (done : List (Uuid × Nat)) (s : LineageQueue) : Prop where
  inv : Inv (linked (db.visible_dependencies tenant_id)) start (· < max_depth) (· = start)
    (· ∈ s.visited_assets) done s.queue
  collects : Collects (db.visible_dependencies tenant_id) s
  found : ∀ dep, dep ∈ s.lineage ↔ dep ∈ db.visible_dependencies tenant_id ∧
    (dep.touches start ∨ ∃ p ∈ done, p.2 < max_depth ∧ dep.touches p.1)

/-- The effect of one round. -/
theorem expand_spec {s : LineageQueue} (h : Collects (db.visible_dependencies tenant_id) s)
    (current_id : Uuid) (depth : Nat) :
    ∃ new : List Uuid, new.Nodup ∧
      (∀ v, v ∈ new ↔
        v ∈ linked (db.visible_dependencies tenant_id) current_id ∧ v ∉ s.visited_assets) ∧
      (s.expand reads current_id depth).queue = s.queue ++ new.map (fun v => (v, depth + 1)) ∧
      (∀ v, v ∈ (s.expand reads current_id depth).visited_assets ↔
        v ∈ s.visited_assets ∨ v ∈ linked (db.visible_dependencies tenant_id) current_id) ∧
      Collects (db.visible_dependencies tenant_id) (s.expand reads current_id depth) ∧
      ∀ dep, dep ∈ (s.expand reads current_id depth).lineage ↔ dep ∈ s.lineage ∨
        dep ∈ db.visible_dependencies tenant_id ∧ dep.touches current_id := by
  have hrows : ((db.visible_dependencies tenant_id).map (·.unique_key)).Nodup :=
    (db.asset_dependencies.filter (db.dependency_visible tenant_id)).uniq_nodup
  obtain ⟨hqueue, hvisited⟩ := foldl_add_queue depth (links reads current_id) s
  have hl : ∀ link ∈ links reads current_id, link.1 ∈ db.visible_dependencies tenant_id :=
    fun link hlink => ((mem_links_fst current_id link.1).mp (List.mem_map_of_mem hlink)).1
  obtain ⟨hcollects, hlineage⟩ := h.foldl_add hrows depth (links reads current_id) hl
  rw [expand_eq]
  refine ⟨_, nodup_discover _ _, ?_, hqueue, ?_, hcollects, ?_⟩
  · intro v
    rw [mem_discover, mem_links_snd]
  · intro v
    rw [hvisited, mem_discover_visited, mem_links_snd]
  · intro dep
    rw [hlineage, mem_links_fst]

/-- The first round takes the start. -/
theorem explored_start (reads : LineageReads db tenant_id) (max_depth : Nat) (start : Uuid) :
    Explored reads max_depth start []
      (LineageQueue.expand reads start 0 ⟨[start], [], [], []⟩) := by
  have hempty : Collects (db.visible_dependencies tenant_id) ⟨[start], [], [], []⟩ :=
    ⟨by simp, by simp, by simp⟩
  obtain ⟨new, hnodup, hnew, hqueue, hvisited, hcollects, hlineage⟩ :=
    @expand_spec db tenant_id reads _ hempty start 0
  simp only [List.mem_singleton] at hnew hvisited
  refine ⟨?_, hcollects, ?_⟩
  · rw [hqueue]
    exact Inv.start (fun v hv => hv) hnodup hnew hvisited
  · intro dep
    rw [hlineage]
    simp

theorem Explored.pass {done queue : List (Uuid × Nat)} {node : Uuid × Nat} {s : LineageQueue}
    (h : Explored reads max_depth start done s) (hqueue : s.queue = node :: queue)
    (hdepth : max_depth ≤ node.2) :
    Explored reads max_depth start (done ++ [node]) { s with queue } := by
  have hinv := h.inv
  rw [hqueue] at hinv
  refine ⟨hinv.pass (Nat.not_lt.mpr hdepth), ⟨h.collects.keys, h.collects.nodup,
    h.collects.rows⟩, ?_⟩
  intro dep
  show dep ∈ s.lineage ↔ _
  rw [h.found]
  apply and_congr_right
  intro _
  apply or_congr_right
  constructor
  · intro hfound
    obtain ⟨p, hp, hlt, htouch⟩ := hfound
    exact ⟨p, List.mem_append_left _ hp, hlt, htouch⟩
  · intro hfound
    obtain ⟨p, hp, hlt, htouch⟩ := hfound
    rcases List.mem_append.mp hp with hp | hp
    · exact ⟨p, hp, hlt, htouch⟩
    · -- the asset that is passed is too far away
      rw [List.mem_singleton.mp hp] at hlt
      omega

theorem Explored.look {done queue : List (Uuid × Nat)} {node : Uuid × Nat} {s : LineageQueue}
    (h : Explored reads max_depth start done s) (hqueue : s.queue = node :: queue)
    (hdepth : node.2 < max_depth) :
    Explored reads max_depth start (done ++ [node])
      ({ s with queue }.expand reads node.1 node.2) := by
  have hinv := h.inv
  rw [hqueue] at hinv
  have hcollects' : Collects (db.visible_dependencies tenant_id) { s with queue } :=
    ⟨h.collects.keys, h.collects.nodup, h.collects.rows⟩
  obtain ⟨new, hnodup, hnew, hqueue', hvisited, hcollects, hlineage⟩ :=
    @expand_spec db tenant_id reads _ hcollects' node.1 node.2
  refine ⟨?_, hcollects, ?_⟩
  · rw [hqueue']
    exact hinv.look hdepth hnodup hnew hvisited
  · intro dep
    rw [hlineage]
    show dep ∈ s.lineage ∨ _ ↔ _
    rw [h.found]
    constructor
    · intro hfound
      rcases hfound with ⟨hrow, hstart | ⟨p, hp, hlt, htouch⟩⟩ | ⟨hrow, htouch⟩
      · exact ⟨hrow, .inl hstart⟩
      · exact ⟨hrow, .inr ⟨p, List.mem_append_left _ hp, hlt, htouch⟩⟩
      · exact ⟨hrow, .inr ⟨node, by simp, hdepth, htouch⟩⟩
    · intro hfound
      rcases hfound with ⟨hrow, hstart | ⟨p, hp, hlt, htouch⟩⟩
      · exact .inl ⟨hrow, .inl hstart⟩
      · rcases List.mem_append.mp hp with hp | hp
        · exact .inl ⟨hrow, .inr ⟨p, hp, hlt, htouch⟩⟩
        · rw [List.mem_singleton.mp hp] at htouch
          exact .inr ⟨hrow, htouch⟩

/-- Only assets at the end of a dependency come into the queue, each at most once. -/
theorem Explored.length_le {done : List (Uuid × Nat)} {s : LineageQueue}
    (h : Explored reads max_depth start done s) :
    done.length + s.queue.length ≤ 2 * (db.visible_dependencies tenant_id).length := by
  have hsubset : (done ++ s.queue).map Prod.fst ⊆
      (db.visible_dependencies tenant_id).map (·.upstream_asset_id) ++
        (db.visible_dependencies tenant_id).map (·.downstream_asset_id) := by
    intro v hv
    obtain ⟨p, hp, rfl⟩ := List.mem_map.mp hv
    obtain ⟨n, hn⟩ := Nat.exists_eq_succ_of_ne_zero (h.inv.distance p hp).pos.ne'
    have hsteps := (h.inv.distance p hp).steps
    rw [hn] at hsteps
    obtain ⟨w, -, hnext⟩ := hsteps
    rcases List.mem_append.mp hnext with hnext | hnext
    · obtain ⟨dep, hdep, heq⟩ := List.mem_map.mp hnext
      exact List.mem_append_left _ (List.mem_map.mpr ⟨dep, List.mem_of_mem_filter hdep, heq⟩)
    · obtain ⟨dep, hdep, heq⟩ := List.mem_map.mp hnext
      exact List.mem_append_right _ (List.mem_map.mpr ⟨dep, List.mem_of_mem_filter hdep, heq⟩)
  have hle := (h.inv.nodup.subperm hsubset).length_le
  rw [List.length_map, List.length_append, List.length_append, List.length_map,
    List.length_map] at hle
  omega

theorem run_empty {rounds : Nat} {s : LineageQueue} (h : s.queue = []) :
    run reads max_depth rounds s = some s.lineage := by
  rw [run.eq_def]
  simp [h]

theorem run_zero {s : LineageQueue} {node : Uuid × Nat} {queue : List (Uuid × Nat)}
    (h : s.queue = node :: queue) : run reads max_depth 0 s = none := by
  rw [run.eq_def]
  simp [h]

theorem run_front {rounds : Nat} {s : LineageQueue} {node : Uuid × Nat}
    {queue : List (Uuid × Nat)} (h : s.queue = node :: queue) :
    run reads max_depth (rounds + 1) s =
      if max_depth ≤ node.2 then run reads max_depth rounds { s with queue }
      else run reads max_depth rounds ({ s with queue }.expand reads node.1 node.2) := by
  rw [run.eq_def]
  simp [h]

/-- The loop comes to its end with an empty queue. -/
theorem run_explored {rounds : Nat} {done : List (Uuid × Nat)} {s : LineageQueue}
    (h : Explored reads max_depth start done s)
    (hrounds : 2 * (db.visible_dependencies tenant_id).length ≤ rounds + done.length) :
    ∃ done' s', run reads max_depth rounds s = some s'.lineage ∧ s'.queue = [] ∧
      Explored reads max_depth start done' s' := by
  -- each round takes one asset from the queue, and there are only so many
  induction rounds generalizing done s with
  | zero =>
    have hle := h.length_le
    have hempty : s.queue = [] := List.length_eq_zero_iff.mp (by omega)
    exact ⟨done, s, run_empty hempty, hempty, h⟩
  | succ rounds ih =>
    cases hqueue : s.queue with
    | nil => exact ⟨done, s, run_empty hqueue, hqueue, h⟩
    | cons node queue =>
      have hlength : (done ++ [node]).length = done.length + 1 := by simp
      rw [run_front hqueue]
      by_cases hdepth : max_depth ≤ node.2
      · rw [if_pos hdepth]
        exact ih (h.pass hqueue hdepth) (by omega)
      · rw [if_neg hdepth]
        exact ih (h.look hqueue (Nat.lt_of_not_le hdepth)) (by omega)

/-- All dependencies of the assets within the limit have been found. -/
theorem Explored.lineage_iff {done : List (Uuid × Nat)} {s : LineageQueue}
    (h : Explored reads max_depth start done s) (hdepth : 0 < max_depth) (hempty : s.queue = [])
    (dep : AssetDependencyModel) :
    dep ∈ s.lineage ↔ dep ∈ db.visible_dependencies tenant_id ∧ ∃ asset_id d, d < max_depth ∧
      UndirectedDistance (db.visible_dependencies tenant_id) start asset_id d ∧
      dep.touches asset_id := by
  have hinv := h.inv
  rw [hempty] at hinv
  rw [h.found]
  apply and_congr_right
  intro _
  constructor
  · intro hfound
    rcases hfound with htouch | ⟨p, hp, hlt, htouch⟩
    · exact ⟨start, 0, hdepth, ⟨rfl, fun n _ => Nat.zero_le n⟩, htouch⟩
    · obtain ⟨hne, hdistance, -⟩ := hinv.found hp
      refine ⟨p.1, p.2, hlt, ⟨hdistance.steps, ?_⟩, htouch⟩
      intro n hsteps
      apply hdistance.least n _ hsteps
      apply Nat.pos_of_ne_zero
      intro hzero
      subst hzero
      exact hne hsteps.symm
  · intro hfound
    obtain ⟨asset_id, d, hlt, hdistance, htouch⟩ := hfound
    -- the start is looked at first, and never comes into the queue
    by_cases hstart : asset_id = start
    · subst hstart
      exact .inl htouch
    · have hpos : 0 < d := by
        apply Nat.pos_of_ne_zero
        intro hzero
        subst hzero
        exact hstart hdistance.steps.symm
      refine .inr ⟨(asset_id, d), ?_, hlt, htouch⟩
      apply hinv.found_iff.mpr
      exact ⟨hstart, ⟨hpos, hdistance.steps, fun n _ hn => hdistance.least n hn⟩,
        fun j _ hj => hj.trans hlt⟩

end search

end LineageQueue

/-- The query looks at nothing, or goes on until the queue is empty. -/
theorem LineageReads.get_asset_lineage_cases {db : Metadata} {tenant_id : TenantId}
    (reads : LineageReads db tenant_id) (asset_id : Uuid) (max_depth : Nat) :
    max_depth = 0 ∧ reads.get_asset_lineage asset_id max_depth = some [] ∨
      0 < max_depth ∧ ∃ done s, reads.get_asset_lineage asset_id max_depth = some s.lineage ∧
        s.queue = [] ∧ LineageQueue.Explored reads max_depth asset_id done s := by
  unfold LineageReads.get_asset_lineage
  rw [LineageQueue.run_front rfl]
  by_cases hdepth : max_depth ≤ 0
  · rw [if_pos hdepth]
    exact .inl ⟨Nat.le_zero.mp hdepth, LineageQueue.run_empty rfl⟩
  · rw [if_neg hdepth]
    obtain ⟨done, s, hrun, hempty, hexplored⟩ := LineageQueue.run_explored
      (LineageQueue.explored_start reads max_depth asset_id) (Nat.le_add_right _ _)
    exact .inr ⟨Nat.pos_of_ne_zero fun hzero => hdepth hzero.le, done, s, hrun, hempty, hexplored⟩

/-- **The stored lineage is exact**: the query returns, with every dependency of an asset that is
    nearer than `max_depth`, each once. -/
theorem get_asset_lineage_exact {db : Metadata} {tenant_id : TenantId}
    (reads : LineageReads db tenant_id) (asset_id : Uuid) (max_depth : Nat) :
    ∃ lineage, reads.get_asset_lineage asset_id max_depth = some lineage ∧
      (lineage.map (·.unique_key)).Nodup ∧
      ∀ dep, dep ∈ lineage ↔ dep ∈ db.visible_dependencies tenant_id ∧
        ∃ asset d, d < max_depth ∧
          UndirectedDistance (db.visible_dependencies tenant_id) asset_id asset d ∧
          dep.touches asset := by
  obtain ⟨hdepth, hnothing⟩ | ⟨hdepth, done, s, hrun, hempty, hexplored⟩ :=
    reads.get_asset_lineage_cases asset_id max_depth
  · refine ⟨[], hnothing, List.nodup_nil, ?_⟩
    intro dep
    constructor
    · intro hmem
      cases hmem
    · intro hfound
      obtain ⟨-, asset, d, hlt, -, -⟩ := hfound
      omega
  · exact ⟨s.lineage, hrun, hexplored.collects.nodup, hexplored.lineage_iff hdepth hempty⟩

/-! ### Depth by depth -/

/-- The rows in the order of the table. -/
def LineageReads.in_order (db : Metadata) (tenant_id : TenantId) :
    LineageReads db tenant_id where
  upstream := db.get_upstream_dependencies tenant_id
  downstream := db.get_downstream_dependencies tenant_id
  upstream_perm _ := .refl _
  downstream_perm _ := .refl _

namespace Lineage

section levels
variable {db : Metadata} {tenant_id : TenantId} {max_depth d : Nat}

/-- The queue while the assets of a depth are taken: what is left of them, and what is queued for
    the next depth. -/
def at_depth (d : Nat) (level : List Uuid) (s : Lineage) : LineageQueue where
  visited_assets := s.visited_assets
  visited_deps := s.visited_deps
  queue := level.map (fun id => (id, d)) ++ s.queue.map (fun id => (id, d + 1))
  lineage := s.lineage

theorem add_at_depth (next_asset : AssetDependencyModel → Uuid) (level : List Uuid) (s : Lineage)
    (dep : AssetDependencyModel) :
    (s.at_depth d level).add d dep (next_asset dep) = (s.add next_asset dep).at_depth d level := by
  by_cases hdep : dep.unique_key ∈ s.visited_deps <;>
    by_cases hseen : next_asset dep ∈ s.visited_assets <;>
    simp [LineageQueue.add, Lineage.add, at_depth, hdep, hseen]

theorem foldl_add_at_depth (next_asset : AssetDependencyModel → Uuid) (level : List Uuid)
    (deps : List AssetDependencyModel) (s : Lineage) :
    deps.foldl (fun s dep => s.add d dep (next_asset dep)) (s.at_depth d level) =
      (deps.foldl (Lineage.add next_asset) s).at_depth d level := by
  induction deps generalizing s with
  | nil => rfl
  | cons dep deps ih =>
    rw [List.foldl_cons, List.foldl_cons, add_at_depth, ih]

theorem expand_at_depth (level : List Uuid) (id : Uuid) (s : Lineage) :
    (s.at_depth d level).expand (.in_order db tenant_id) id d =
      (s.visit (db.get_asset_dependencies tenant_id) id).at_depth d level := by
  unfold LineageQueue.expand
  rw [foldl_add_at_depth (·.upstream_asset_id), foldl_add_at_depth (·.downstream_asset_id)]
  rfl

/-- The rounds of one depth. -/
theorem run_level {rounds : Nat} {level : List Uuid} {s : Lineage}
    {lineage : List AssetDependencyModel} (hdepth : d < max_depth)
    (h : LineageQueue.run (.in_order db tenant_id) max_depth rounds (s.at_depth d level) =
      some lineage) :
    ∃ rounds', LineageQueue.run (.in_order db tenant_id) max_depth rounds'
      ((level.foldl (visit (db.get_asset_dependencies tenant_id)) s).at_depth d []) =
        some lineage := by
  induction level generalizing s rounds with
  | nil => exact ⟨rounds, h⟩
  | cons id level ih =>
    have hqueue : (s.at_depth d (id :: level)).queue = (id, d) :: (s.at_depth d level).queue := rfl
    cases rounds with
    | zero =>
      rw [LineageQueue.run_zero hqueue] at h
      cases h
    | succ rounds =>
      rw [LineageQueue.run_front hqueue, if_neg (Nat.not_le.mpr hdepth)] at h
      have hrest : { s.at_depth d (id :: level) with queue := (s.at_depth d level).queue } =
          s.at_depth d level := rfl
      rw [hrest, expand_at_depth] at h
      exact ih h

/-- From the limit on, nothing is looked at. -/
theorem run_past_limit {rounds : Nat} {s : LineageQueue} {lineage : List AssetDependencyModel}
    (hdepth : ∀ p ∈ s.queue, max_depth ≤ p.2)
    (h : LineageQueue.run (.in_order db tenant_id) max_depth rounds s = some lineage) :
    lineage = s.lineage := by
  induction rounds generalizing s with
  | zero =>
    cases hqueue : s.queue with
    | nil =>
      rw [LineageQueue.run_empty hqueue] at h
      exact (Option.some.inj h).symm
    | cons node queue =>
      rw [LineageQueue.run_zero hqueue] at h
      cases h
  | succ rounds ih =>
    cases hqueue : s.queue with
    | nil =>
      rw [LineageQueue.run_empty hqueue] at h
      exact (Option.some.inj h).symm
    | cons node queue =>
      rw [hqueue] at hdepth
      rw [LineageQueue.run_front hqueue, if_pos (hdepth node List.mem_cons_self)] at h
      exact @ih { s with queue } (fun p hp => hdepth p (List.mem_cons_of_mem _ hp)) h

/-- The loop over the queue goes from depth to depth. -/
theorem run_eq_traverse {depths rounds : Nat} {s : Lineage}
    {lineage : List AssetDependencyModel} (hdepths : max_depth = d + depths)
    (h : LineageQueue.run (.in_order db tenant_id) max_depth rounds
      ({ s with queue := [] }.at_depth d s.queue) = some lineage) :
    lineage = (traverse (db.get_asset_dependencies tenant_id) depths s).lineage := by
  induction depths generalizing d rounds s with
  | zero =>
    refine run_past_limit ?_ h
    intro p hp
    obtain ⟨id, -, rfl⟩ : ∃ id ∈ s.queue, (id, d) = p := by simpa [at_depth] using hp
    exact hdepths.le
  | succ depths ih =>
    rw [traverse]
    by_cases hempty : s.queue = []
    · rw [if_pos hempty]
      rw [hempty, LineageQueue.run_empty rfl] at h
      exact (Option.some.inj h).symm
    · rw [if_neg hempty]
      obtain ⟨rounds', hrun⟩ := run_level (by omega) h
      apply @ih (d + 1) rounds' _ (by omega)
      rw [← hrun]
      simp [at_depth]

end levels

end Lineage

/-- The traversal depth by depth finds the same. -/
theorem get_asset_lineage_eq (db : Metadata) (tenant_id : TenantId) (asset_id : Uuid)
    (max_depth : Nat) :
    (LineageReads.in_order db tenant_id).get_asset_lineage asset_id max_depth =
      some (db.get_asset_lineage tenant_id asset_id max_depth) := by
  obtain ⟨lineage, hlineage⟩ : ∃ lineage,
      (LineageReads.in_order db tenant_id).get_asset_lineage asset_id max_depth = some lineage := by
    obtain ⟨_, hnothing⟩ | ⟨_, done, s, hrun, _⟩ :=
      (LineageReads.in_order db tenant_id).get_asset_lineage_cases asset_id max_depth
    · exact ⟨[], hnothing⟩
    · exact ⟨s.lineage, hrun⟩
  rw [hlineage]
  have hrun := @Lineage.run_eq_traverse db tenant_id max_depth 0 max_depth _
    ⟨[asset_id], [], [asset_id], []⟩ lineage (Nat.zero_add _).symm hlineage
  rw [hrun]
  rfl

end Servo
