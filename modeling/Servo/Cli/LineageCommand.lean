import Servo.Core.Compiler
import Servo.Lineage.AssetListing
import Servo.Storage.LineageQuery

/-! # The Lineage Command

    `build_lineage_graph` reads the dependencies around an asset from the
    database and builds a lineage graph of them, in two passes. The first
    visits the assets, from a work list, and adds a node for each. The second
    asks for the dependencies of all visited assets again, and adds the edges.

    Each dependency is read from both of its ends. If both directions are
    followed, its edge is added twice.
-/

namespace Servo

open BreadthFirst

/-! ### The code -/

namespace LineageGraph

variable {P : DiGraph LineageNode LineageEdge}

/-- Get a node by asset ID. -/
def get_node (G : LineageGraph P) (asset_id : AssetId) : Option (Option LineageNode) :=
  match G.asset_to_node asset_id with
  | none => some none
  | some idx => (P.node_weight G.graph idx).map some

/-- Only add edge if both nodes exist in graph. -/
def link (G : LineageGraph P) (from_id to_id : AssetId) (dependency_type : String) :
    Option (LineageGraph P) :=
  (G.get_node from_id).bind fun from_node =>
    (G.get_node to_id).bind fun to_node =>
      if from_node.isSome && to_node.isSome then
        (G.add_edge from_id to_id ⟨dependency_type⟩).map fun result => result.toOption.getD G
      else some G

end LineageGraph

/-- The variables of `build_lineage_graph`. -/
structure LineageBuild (P : DiGraph LineageNode LineageEdge) where
  graph : LineageGraph P
  visited : List Uuid
  to_visit : List Uuid
  /-- id -> (name, type) -/
  asset_cache : List (Uuid × String × String)

namespace LineageBuild

variable {P : DiGraph LineageNode LineageEdge} (db : Metadata) (tenant_id : TenantId)

/-- The details of an asset, from the cache or else from the database. -/
def details (s : LineageBuild P) (id : Uuid) : Option (LineageBuild P × String × String) :=
  match s.asset_cache.find? (·.1 = id) with
  | some cached => some (s, cached.2)
  | none =>
    match db.get_asset tenant_id id with
    | .ok a =>
      let result := (a.name, a.asset_type)
      some ({ s with asset_cache := s.asset_cache ++ [(id, result)] }, result)
    | .error _ => none

/-- What is done with the asset at the other end of a dependency. -/
def meet (s : LineageBuild P) (id : Uuid) : LineageBuild P :=
  -- Ensure the asset is in graph
  let s := if id ∈ s.visited then s else { s with to_visit := s.to_visit ++ [id] }
  -- Cache asset info for edge creation
  match s.details db tenant_id id with
  | some (s, _) => s
  | none => s

variable {db tenant_id} (reads : LineageReads db tenant_id)
  (traverse_upstream traverse_downstream : Bool)

/-- One asset of the work list. -/
def visit (s : LineageBuild P) (current_id : Uuid) : Option (LineageBuild P) :=
  if current_id ∈ s.visited then some s
  else
    let s := { s with visited := s.visited ++ [current_id] }
    match s.details db tenant_id current_id with
    -- Asset not found or error, skip
    | none => some s
    | some (s, name, asset_type) =>
      -- Add node to graph
      (s.graph.add_node ⟨⟨current_id⟩, name, asset_type⟩).map fun added =>
        let s := { s with graph := added.1 }
        -- Process upstream (what this asset depends on)
        let s := if traverse_upstream then
          (reads.upstream current_id).foldl
            (fun s dep => s.meet db tenant_id dep.upstream_asset_id) s
        else s
        -- Process downstream (what depends on this asset)
        if traverse_downstream then
          (reads.downstream current_id).foldl
            (fun s dep => s.meet db tenant_id dep.downstream_asset_id) s
        else s

/-- The first pass; `none` is a panic, or that there are more rounds than `rounds`. -/
def run : Nat → LineageBuild P → Option (LineageBuild P)
  | rounds, s =>
    match s.to_visit, rounds with
    | [], _ => some s
    | _ :: _, 0 => none
    | current_id :: to_visit, rounds + 1 =>
      (visit reads traverse_upstream traverse_downstream { s with to_visit } current_id).bind
        (run rounds)

/-- All nodes that were cached but not visited (for edge endpoints). -/
def add_cached (visited : List Uuid) (asset_cache : List (Uuid × String × String))
    (graph : LineageGraph P) : Option (LineageGraph P) :=
  asset_cache.foldlM (fun graph entry =>
    if entry.1 ∈ visited then some graph
    else (graph.add_node ⟨⟨entry.1⟩, entry.2.1, entry.2.2⟩).map Prod.fst) graph

/-- The edges of one asset. -/
def add_edges (graph : LineageGraph P) (node_id : Uuid) : Option (LineageGraph P) := do
  -- Add upstream edges (upstream -> current)
  let graph ← if traverse_upstream then
    (reads.upstream node_id).foldlM
      (fun graph dep => graph.link ⟨dep.upstream_asset_id⟩ ⟨node_id⟩ dep.dependency_type) graph
  else some graph
  -- Add downstream edges (current -> downstream)
  if traverse_downstream then
    (reads.downstream node_id).foldlM
      (fun graph dep => graph.link ⟨node_id⟩ ⟨dep.downstream_asset_id⟩ dep.dependency_type) graph
  else some graph

end LineageBuild

/-- Build a lineage graph by traversing dependencies from storage. The second pass reads again,
    and goes through the cache and the visited assets in the order of the hash tables. -/
def build_lineage_graph {P : DiGraph LineageNode LineageEdge} {db : Metadata}
    {tenant_id : TenantId} (reads reads' : LineageReads db tenant_id)
    (visited_order : HashOrder Uuid) (cache_order : HashOrder (Uuid × String × String))
    (start_asset_id : Uuid) (include_upstream include_downstream : Bool) :
    Option (LineageGraph P) := do
  -- If neither direction specified, include both
  let traverse_upstream := include_upstream || !include_downstream
  let traverse_downstream := include_downstream || !include_upstream
  let rounds := 2 * (db.visible_dependencies tenant_id).length + 1
  let s ← LineageBuild.run reads traverse_upstream traverse_downstream rounds
    ⟨.new, [], [start_asset_id], []⟩
  let graph ← LineageBuild.add_cached s.visited (cache_order.order s.asset_cache) s.graph
  -- Second pass: add edges
  (visited_order.order s.visited).foldlM
    (LineageBuild.add_edges reads' traverse_upstream traverse_downstream) graph

/-! ### What is stored -/

/-- The assets next to an asset, by the rows. -/
def stored_next (rows : List AssetDependencyModel) : Direction → Uuid → List Uuid
  | .incoming, id => (rows.filter (·.downstream_asset_id = id)).map (·.upstream_asset_id)
  | .outgoing, id => (rows.filter (·.upstream_asset_id = id)).map (·.downstream_asset_id)

/-- The assets at the end of a path that is not empty, each once, with the shortest length. -/
structure ListsStored (rows : List AssetDependencyModel) (direction : Direction) (start : Uuid)
    (result : List (AssetId × Nat)) : Prop where
  nodup : (result.map Prod.fst).Nodup
  exact : ∀ id depth, (⟨id⟩, depth) ∈ result ↔
    Distance (stored_next rows direction) start id depth

/-- What the command promises to report: the stored assets, and their numbers. -/
structure ReportsStored {P : DiGraph LineageNode LineageEdge} (rows : List AssetDependencyModel)
    (start : Uuid) (graph : LineageGraph P) : Prop where
  ancestors : ∃ result, ancestors_with_depth graph ⟨start⟩ none = some result ∧
    ListsStored rows .incoming start result
  descendants : ∃ result, descendants_with_depth graph ⟨start⟩ none = some result ∧
    ListsStored rows .outgoing start result
  summary : ∃ info, graph.full_lineage ⟨start⟩ = some info ∧
    info.upstream_count =
      {id | ∃ depth, Distance (stored_next rows .incoming) start id depth}.ncard ∧
    info.downstream_count =
      {id | ∃ depth, Distance (stored_next rows .outgoing) start id depth}.ncard

/-! ### The first pass -/

namespace LineageBuild

section pass
variable {P : DiGraph LineageNode LineageEdge} {capacity : Nat} {db : Metadata}
  {tenant_id : TenantId} {reads : LineageReads db tenant_id} {s s' : LineageBuild P} {id : Uuid}

theorem asset_visible_iff :
    db.asset_visible tenant_id id = true ↔ ∃ a, db.get_asset tenant_id id = .ok a := by
  unfold Metadata.asset_visible Metadata.get_asset fetch
  cases hfind : (db.visible_assets tenant_id).find? (·.id = id) with
  | none =>
    rw [List.find?_eq_none] at hfind
    simp only [reduceCtorEq, exists_false, iff_false, List.any_eq_true, not_exists, not_and]
    exact hfind
  | some a =>
    have hmem := List.mem_of_find?_eq_some hfind
    have heq := List.find?_some hfind
    exact iff_of_true (List.any_eq_true.mpr ⟨a, hmem, heq⟩) ⟨a, rfl⟩

/-- Only the cache may change, by an entry for the asset. -/
theorem details_eq_some {found : String × String}
    (h : s.details db tenant_id id = some (s', found)) :
    s'.graph = s.graph ∧ s'.visited = s.visited ∧ s'.to_visit = s.to_visit ∧
      ∀ e ∈ s'.asset_cache, e ∈ s.asset_cache ∨ e.1 = id := by
  unfold details at h
  split at h
  · cases h
    exact ⟨rfl, rfl, rfl, fun e he => .inl he⟩
  · split at h
    · cases h
      refine ⟨rfl, rfl, rfl, fun e he => ?_⟩
      rcases List.mem_append.mp he with he | he
      · exact .inl he
      · rw [List.mem_singleton.mp he]
        exact .inr rfl
    · cases h

/-- The details of an asset that the tenant sees are found. -/
theorem details_isSome (hvisible : db.asset_visible tenant_id id = true) :
    ∃ s' found, s.details db tenant_id id = some (s', found) := by
  obtain ⟨a, ha⟩ := asset_visible_iff.mp hvisible
  unfold details
  cases hcached : s.asset_cache.find? (·.1 = id) with
  | some cached => exact ⟨s, cached.2, rfl⟩
  | none =>
    rw [ha]
    exact ⟨_, _, rfl⟩

theorem meet_spec (s : LineageBuild P) (id : Uuid) :
    (s.meet db tenant_id id).graph = s.graph ∧ (s.meet db tenant_id id).visited = s.visited ∧
      (s.meet db tenant_id id).to_visit = s.to_visit ++ [id].filter (· ∉ s.visited) ∧
      ∀ e ∈ (s.meet db tenant_id id).asset_cache, e ∈ s.asset_cache ∨ e.1 = id := by
  obtain ⟨queued, hqueued⟩ : ∃ queued : LineageBuild P, queued =
      if id ∈ s.visited then s else { s with to_visit := s.to_visit ++ [id] } := ⟨_, rfl⟩
  have hkeep : queued.graph = s.graph ∧ queued.visited = s.visited ∧
      queued.to_visit = s.to_visit ++ [id].filter (· ∉ s.visited) ∧
      queued.asset_cache = s.asset_cache := by
    by_cases hvisited : id ∈ s.visited <;> simp [hqueued, hvisited]
  obtain ⟨hgraph, hvisited, hto_visit, hcache⟩ := hkeep
  unfold meet
  simp only [← hqueued]
  cases hdetails : queued.details db tenant_id id with
  | none => exact ⟨hgraph, hvisited, hto_visit, fun e he => .inl (hcache ▸ he)⟩
  | some found =>
    obtain ⟨hgraph', hvisited', hto_visit', hcache'⟩ := details_eq_some hdetails
    refine ⟨hgraph'.trans hgraph, hvisited'.trans hvisited, hto_visit'.trans hto_visit, ?_⟩
    intro e he
    rw [← hcache]
    exact hcache' e he

theorem foldl_meet_spec (s : LineageBuild P) (ids : List Uuid) :
    (ids.foldl (meet db tenant_id) s).graph = s.graph ∧
      (ids.foldl (meet db tenant_id) s).visited = s.visited ∧
      (ids.foldl (meet db tenant_id) s).to_visit = s.to_visit ++ ids.filter (· ∉ s.visited) ∧
      ∀ e ∈ (ids.foldl (meet db tenant_id) s).asset_cache, e ∈ s.asset_cache ∨ e.1 ∈ ids := by
  induction ids generalizing s with
  | nil => exact ⟨rfl, rfl, (List.append_nil _).symm, fun e he => .inl he⟩
  | cons id ids ih =>
    obtain ⟨hgraph, hvisited, hto_visit, hcache⟩ := @meet_spec P db tenant_id s id
    obtain ⟨hgraph', hvisited', hto_visit', hcache'⟩ := ih (s.meet db tenant_id id)
    rw [List.foldl_cons]
    refine ⟨hgraph'.trans hgraph, hvisited'.trans hvisited, ?_, ?_⟩
    · rw [hto_visit', hto_visit, hvisited, List.append_assoc, ← List.filter_append,
        List.singleton_append]
    · intro e he
      rw [List.mem_cons]
      rcases hcache' e he with he | he
      · exact (hcache e he).imp_right .inl
      · exact .inr (.inr he)

/-- The assets at the other ends of the dependencies of an asset. -/
def ends (reads : LineageReads db tenant_id) (id : Uuid) : List Uuid :=
  (reads.upstream id).map (·.upstream_asset_id) ++
    (reads.downstream id).map (·.downstream_asset_id)

/-- What a visit does if both directions are followed. -/
inductive Visits (reads : LineageReads db tenant_id) (capacity : Nat) (s : LineageBuild P)
    (id : Uuid) : Option (LineageBuild P) → Prop where
  | again (hvisited : id ∈ s.visited) : Visits reads capacity s id (some s)
  | skip (hnew : id ∉ s.visited) (hhidden : db.asset_visible tenant_id id = false) :
    Visits reads capacity s id (some { s with visited := s.visited ++ [id] })
  | full (hnew : id ∉ s.visited) (hcount : capacity ≤ P.node_count s.graph.graph) :
    Visits reads capacity s id none
  | add (hnew : id ∉ s.visited) (node : LineageNode) (hid : node.asset_id = ⟨id⟩)
      (graph : LineageGraph P) (idx : Nat) (hadd : s.graph.add_node node = some (graph, idx))
      (asset_cache : List (Uuid × String × String))
      (hcache : ∀ e ∈ asset_cache, e ∈ s.asset_cache ∨ e.1 = id ∨ e.1 ∈ ends reads id) :
    Visits reads capacity s id (some ⟨graph, s.visited ++ [id],
      s.to_visit ++ (ends reads id).filter (· ∉ s.visited ++ [id]), asset_cache⟩)

theorem visit_spec (hP : P.Lawful capacity) (s : LineageBuild P) (id : Uuid) :
    Visits reads capacity s id (s.visit reads true true id) := by
  unfold visit
  by_cases hvisited : id ∈ s.visited
  · rw [if_pos hvisited]
    exact .again hvisited
  · rw [if_neg hvisited]
    obtain ⟨marked, hmarked⟩ : ∃ marked : LineageBuild P,
        marked = { s with visited := s.visited ++ [id] } := ⟨_, rfl⟩
    simp only [← hmarked, if_true]
    cases hdetails : marked.details db tenant_id id with
    | none =>
      have hhidden : db.asset_visible tenant_id id = false := by
        apply Bool.eq_false_iff.mpr
        intro hvisible
        obtain ⟨s', found, hfound⟩ := @details_isSome P db tenant_id marked id hvisible
        rw [hdetails] at hfound
        cases hfound
      rw [hmarked]
      exact .skip hvisited hhidden
    | some found =>
      obtain ⟨s', name, asset_type⟩ := found
      obtain ⟨hgraph, hkeep, hto_visit, hcache⟩ := details_eq_some hdetails
      simp only []
      cases hadd : s'.graph.add_node ⟨⟨id⟩, name, asset_type⟩ with
      | none =>
        have hfull : capacity ≤ P.node_count s.graph.graph := by
          by_contra hlt
          have hsome := hP.add_node_isSome s.graph.graph ⟨⟨id⟩, name, asset_type⟩ (by omega)
          rw [hgraph, hmarked] at hadd
          have hnone := Option.map_eq_none_iff.mp hadd
          rw [hnone] at hsome
          cases hsome
        exact .full hvisited hfull
      | some added =>
        obtain ⟨graph, idx⟩ := added
        have hfold : (reads.downstream id).foldl
              (fun s dep => s.meet db tenant_id dep.downstream_asset_id)
              ((reads.upstream id).foldl (fun s dep => s.meet db tenant_id dep.upstream_asset_id)
                { s' with graph }) =
            (ends reads id).foldl (meet db tenant_id) { s' with graph } := by
          rw [ends, List.foldl_append, List.foldl_map, List.foldl_map]
        rw [Option.map_some, hfold]
        obtain ⟨hgraph', hkeep', hto_visit', hcache'⟩ :=
          @foldl_meet_spec P db tenant_id { s' with graph } (ends reads id)
        generalize (ends reads id).foldl (meet db tenant_id) { s' with graph } = met at *
        obtain ⟨graph', visited', to_visit', asset_cache'⟩ := met
        obtain rfl : graph' = graph := hgraph'
        have hvisited' : visited' = s.visited ++ [id] := by
          rw [hmarked] at hkeep
          exact Eq.trans hkeep' hkeep
        have hto_visit'' : to_visit' =
            s.to_visit ++ (ends reads id).filter (· ∉ s.visited ++ [id]) := by
          rw [hmarked] at hkeep hto_visit
          simp only [hkeep, hto_visit] at hto_visit'
          exact hto_visit'
        rw [hgraph, hmarked] at hadd
        rw [hvisited', hto_visit'']
        apply Visits.add hvisited ⟨⟨id⟩, name, asset_type⟩ rfl graph' idx hadd
        intro e he
        rcases hcache' e he with he | he
        · rw [hmarked] at hcache
          exact (hcache e he).imp_right .inl
        · exact .inr (.inr he)

/-- How many times the assets that have not been visited can put another one into the work
    list. -/
def pending (rows : List AssetDependencyModel) (visited : List Uuid) : Nat :=
  rows.countP (·.downstream_asset_id ∉ visited) + rows.countP (·.upstream_asset_id ∉ visited)

theorem countP_visit {rows : List AssetDependencyModel} {visited : List Uuid}
    (key : AssetDependencyModel → Uuid) (hnew : id ∉ visited) :
    rows.countP (fun dep => key dep ∉ visited ++ [id]) + rows.countP (fun dep => key dep = id) =
      rows.countP (fun dep => key dep ∉ visited) := by
  induction rows with
  | nil => rfl
  | cons dep rows ih =>
    rw [List.countP_cons, List.countP_cons, List.countP_cons, ← ih]
    by_cases heq : key dep = id
    · simp [heq, hnew]
      omega
    · by_cases hvisited : key dep ∈ visited <;> simp [heq, hvisited]
      omega

theorem ends_length (id : Uuid) :
    (ends reads id).length =
      (db.visible_dependencies tenant_id).countP (·.downstream_asset_id = id) +
        (db.visible_dependencies tenant_id).countP (·.upstream_asset_id = id) := by
  rw [ends, List.length_append, List.length_map, List.length_map,
    (reads.upstream_perm id).length_eq, (reads.downstream_perm id).length_eq,
    List.countP_eq_length_filter, List.countP_eq_length_filter]
  rfl

theorem pending_visit {visited : List Uuid} (hnew : id ∉ visited) :
    pending (db.visible_dependencies tenant_id) (visited ++ [id]) + (ends reads id).length =
      pending (db.visible_dependencies tenant_id) visited := by
  have hdown := @countP_visit id (db.visible_dependencies tenant_id) visited
    (·.downstream_asset_id) hnew
  have hup := @countP_visit id (db.visible_dependencies tenant_id) visited
    (·.upstream_asset_id) hnew
  rw [ends_length, pending, pending]
  omega

open LTS LineageCalls

/-- What holds before each round of the first pass. -/
structure Walked (reads : LineageReads db tenant_id) (start : Uuid) (s : LineageBuild P) :
    Prop where
  nodup : s.visited.Nodup
  indexed : ∀ id ∈ s.visited, db.asset_visible tenant_id id = true →
    (s.graph.asset_to_node ⟨id⟩).isSome
  closed : ∀ id ∈ s.visited, db.asset_visible tenant_id id = true →
    ∀ v ∈ ends reads id, v ∈ s.visited ∨ v ∈ s.to_visit
  rooted : start ∈ s.visited ∨ start ∈ s.to_visit
  cached : ∀ e ∈ s.asset_cache, e.1 ∈ s.visited ∨ e.1 ∈ s.to_visit
  reachable : Reachable (lineage_system P) s.graph
  nodes : P.node_count s.graph.graph ≤ s.visited.length
  edges : P.edge_count s.graph.graph = 0

theorem walked_start (hP : P.Lawful capacity) (reads : LineageReads db tenant_id)
    (start : Uuid) :
    Walked reads start (⟨.new, [], [start], []⟩ : LineageBuild P) where
  nodup := .nil
  indexed := by simp
  closed := by simp
  rooted := .inr List.mem_cons_self
  cached := by simp
  reachable := ⟨[], .init rfl⟩
  nodes := hP.node_count_new.le
  edges := hP.edge_count_new

theorem Walked.visit (hP : P.Lawful capacity) {start : Uuid} {to_visit : List Uuid}
    (h : Walked reads start s) (hto_visit : s.to_visit = id :: to_visit)
    (hvisit : LineageBuild.visit reads true true { s with to_visit } id = some s') :
    Walked reads start s' := by
  have hspec := @visit_spec P capacity db tenant_id reads hP { s with to_visit } id
  rw [hvisit] at hspec
  -- what was in the work list is still there, or has been visited now
  have hlist : ∀ v, v ∈ s.visited ∨ v ∈ s.to_visit → v ∈ s.visited ∨ v = id ∨ v ∈ to_visit := by
    intro v hv
    rwa [hto_visit, List.mem_cons] at hv
  cases hspec with
  | again hvisited =>
    have hkeep : ∀ v, v ∈ s.visited ∨ v ∈ s.to_visit → v ∈ s.visited ∨ v ∈ to_visit := by
      intro v hv
      rcases hlist v hv with hv | rfl | hv
      · exact .inl hv
      · exact .inl hvisited
      · exact .inr hv
    exact ⟨h.nodup, h.indexed, fun v hv hvis w hw => hkeep w (h.closed v hv hvis w hw),
      hkeep start h.rooted, fun e he => hkeep e.1 (h.cached e he), h.reachable, h.nodes, h.edges⟩
  | skip hnew hhidden =>
    have hkeep : ∀ v, v ∈ s.visited ∨ v ∈ s.to_visit → v ∈ s.visited ++ [id] ∨ v ∈ to_visit := by
      intro v hv
      rw [List.mem_append, List.mem_singleton, or_assoc]
      exact hlist v hv
    have hold : ∀ v ∈ s.visited ++ [id], db.asset_visible tenant_id v = true →
        v ∈ s.visited := by
      intro v hv hvis
      rcases List.mem_append.mp hv with hv | hv
      · exact hv
      · rw [List.mem_singleton.mp hv, hhidden] at hvis
        cases hvis
    refine ⟨?_, fun v hv hvis => h.indexed v (hold v hv hvis) hvis,
      fun v hv hvis w hw => hkeep w (h.closed v (hold v hv hvis) hvis w hw),
      hkeep start h.rooted, fun e he => hkeep e.1 (h.cached e he), h.reachable, ?_, h.edges⟩
    · exact h.nodup.append (List.nodup_singleton id) (by simpa using hnew)
    · exact h.nodes.trans (by simp)
  | add hnew node hid graph idx hadd asset_cache hcache =>
    obtain ⟨hgraph, hindex⟩ := add_node_eq_some hadd
    have hcount := hP.add_node_count _ _ _ _ hgraph
    have hends : ∀ v ∈ ends reads id, v ∈ s.visited ++ [id] ∨
        v ∈ to_visit ++ (ends reads id).filter (· ∉ s.visited ++ [id]) := by
      intro v hv
      by_cases hseen : v ∈ s.visited ++ [id]
      · exact .inl hseen
      · exact .inr (List.mem_append_right _ (List.mem_filter.mpr ⟨hv, by simpa using hseen⟩))
    have hkeep : ∀ v, v ∈ s.visited ∨ v ∈ s.to_visit → v ∈ s.visited ++ [id] ∨
        v ∈ to_visit ++ (ends reads id).filter (· ∉ s.visited ++ [id]) := by
      intro v hv
      rcases hlist v hv with hv | rfl | hv
      · exact .inl (List.mem_append_left _ hv)
      · exact .inl (by simp)
      · exact .inr (List.mem_append_left _ hv)
    refine ⟨?_, ?_, ?_, hkeep start h.rooted, ?_, ?_, ?_, hcount.2.trans h.edges⟩
    · exact h.nodup.append (List.nodup_singleton id) (by simpa using hnew)
    · intro v hv hvis
      show (graph.asset_to_node ⟨v⟩).isSome
      rw [hindex, Function.update_apply, hid]
      by_cases heq : v = id
      · rw [heq, if_pos rfl]
        rfl
      · have hne : ¬ (⟨v⟩ : AssetId) = ⟨id⟩ := fun h => heq (congrArg AssetId.uuid h)
        rw [if_neg hne]
        have hold : v ∈ s.visited := by simpa [heq] using hv
        exact h.indexed v hold hvis
    · intro v hv hvis w hw
      by_cases heq : v = id
      · exact hends w (heq ▸ hw)
      · have hold : v ∈ s.visited := by simpa [heq] using hv
        exact hkeep w (h.closed v hold hvis w hw)
    · intro e he
      rcases hcache e he with he | he | he
      · exact hkeep e.1 (h.cached e he)
      · rw [he]
        exact .inl (by simp)
      · exact hends e.1 he
    · obtain ⟨tr, hrun⟩ := h.reachable
      have hstep : (lineage_system P).next s.graph (.add_node node) = some graph := by
        show (s.graph.add_node node).map (·.1) = some graph
        rw [hadd]
        rfl
      show Reachable (lineage_system P) graph
      exact ⟨_, .step (.add_node node) hrun hstep⟩
    · show P.node_count graph.graph ≤ (s.visited ++ [id]).length
      rw [hcount.1, List.length_append, List.length_singleton]
      exact Nat.succ_le_succ h.nodes

theorem run_empty {rounds : Nat} (h : s.to_visit = []) :
    run reads true true rounds s = some s := by
  rw [run.eq_def]
  simp [h]

theorem run_zero {to_visit : List Uuid} (h : s.to_visit = id :: to_visit) :
    run reads true true 0 s = none := by
  rw [run.eq_def]
  simp [h]

theorem run_front {rounds : Nat} {to_visit : List Uuid} (h : s.to_visit = id :: to_visit) :
    run reads true true (rounds + 1) s =
      (LineageBuild.visit reads true true { s with to_visit } id).bind
        (run reads true true rounds) := by
  rw [run.eq_def]
  simp [h]

/-- The first pass ends with an empty work list. -/
theorem Walked.run (hP : P.Lawful capacity) {start : Uuid} {rounds : Nat}
    (h : Walked reads start s) (hrun : LineageBuild.run reads true true rounds s = some s') :
    Walked reads start s' ∧ s'.to_visit = [] := by
  induction rounds generalizing s with
  | zero =>
    cases hto_visit : s.to_visit with
    | nil =>
      rw [run_empty hto_visit] at hrun
      cases hrun
      exact ⟨h, hto_visit⟩
    | cons id to_visit =>
      rw [run_zero hto_visit] at hrun
      cases hrun
  | succ rounds ih =>
    cases hto_visit : s.to_visit with
    | nil =>
      rw [run_empty hto_visit] at hrun
      cases hrun
      exact ⟨h, hto_visit⟩
    | cons id to_visit =>
      rw [run_front hto_visit] at hrun
      obtain ⟨next, hvisit, hrest⟩ := Option.bind_eq_some_iff.mp hrun
      exact ih (h.visit hP hto_visit hvisit) hrest

/-- It comes to an end, if the graph has room. -/
theorem Walked.run_isSome (hP : P.Lawful capacity) {start : Uuid} {rounds : Nat}
    (h : Walked reads start s) (hroom : s.visited.length + rounds ≤ capacity)
    (hrounds : s.to_visit.length + pending (db.visible_dependencies tenant_id) s.visited ≤ rounds) :
    ∃ s', LineageBuild.run reads true true rounds s = some s' := by
  induction rounds generalizing s with
  | zero =>
    have hempty : s.to_visit = [] := List.length_eq_zero_iff.mp (by omega)
    exact ⟨s, run_empty hempty⟩
  | succ rounds ih =>
    cases hto_visit : s.to_visit with
    | nil => exact ⟨s, run_empty hto_visit⟩
    | cons id to_visit =>
      rw [run_front hto_visit]
      rw [hto_visit, List.length_cons] at hrounds
      have hspec := @visit_spec P capacity db tenant_id reads hP { s with to_visit } id
      cases hvisit : LineageBuild.visit reads true true { s with to_visit } id with
      | none =>
        rw [hvisit] at hspec
        cases hspec with
        | full hnew hcount =>
          have hnodes := h.nodes
          change capacity ≤ P.node_count s.graph.graph at hcount
          omega
      | some next =>
        have hwalked := h.visit hP hto_visit hvisit
        rw [hvisit] at hspec
        rw [Option.bind_some]
        cases hspec with
        | again hvisited =>
          apply ih hwalked
          · show s.visited.length + rounds ≤ capacity
            omega
          · show to_visit.length + pending _ s.visited ≤ rounds
            omega
        | skip hnew hhidden =>
          have hpending := @pending_visit db tenant_id reads id s.visited hnew
          apply ih hwalked
          · show (s.visited ++ [id]).length + rounds ≤ capacity
            rw [List.length_append, List.length_singleton]
            omega
          · show to_visit.length + pending _ (s.visited ++ [id]) ≤ rounds
            omega
        | add hnew node hid graph idx hadd asset_cache hcache =>
          have hpending := @pending_visit db tenant_id reads id s.visited hnew
          have hle := List.length_filter_le (· ∉ s.visited ++ [id]) (ends reads id)
          apply ih hwalked
          · show (s.visited ++ [id]).length + rounds ≤ capacity
            rw [List.length_append, List.length_singleton]
            omega
          · show (to_visit ++ (ends reads id).filter (· ∉ s.visited ++ [id])).length +
              pending _ (s.visited ++ [id]) ≤ rounds
            rw [List.length_append]
            omega

/-- What has been cached has been visited, so that no node is added for it. -/
theorem add_cached_of_visited {visited : List Uuid} {graph : LineageGraph P}
    {asset_cache : List (Uuid × String × String)} (h : ∀ e ∈ asset_cache, e.1 ∈ visited) :
    add_cached visited asset_cache graph = some graph := by
  unfold add_cached
  induction asset_cache with
  | nil => rfl
  | cons e asset_cache ih =>
    rw [List.foldlM_cons, if_pos (h e List.mem_cons_self)]
    exact ih fun e' he => h e' (List.mem_cons_of_mem _ he)

/-! ### The second pass -/

/-- The edges that are added for an asset. -/
def calls (reads : LineageReads db tenant_id) (node_id : Uuid) :
    List (AssetId × AssetId × String) :=
  (reads.upstream node_id).map
      (fun dep => (⟨dep.upstream_asset_id⟩, ⟨node_id⟩, dep.dependency_type)) ++
    (reads.downstream node_id).map
      (fun dep => (⟨node_id⟩, ⟨dep.downstream_asset_id⟩, dep.dependency_type))

theorem add_edges_eq (graph : LineageGraph P) (node_id : Uuid) :
    add_edges reads true true graph node_id =
      (calls reads node_id).foldlM (fun graph call => graph.link call.1 call.2.1 call.2.2)
        graph := by
  rw [calls, List.foldlM_append]
  simp only [List.foldlM_map]
  rfl

theorem foldlM_add_edges_eq (graph : LineageGraph P) (ids : List Uuid) :
    ids.foldlM (add_edges reads true true) graph =
      (ids.flatMap (calls reads)).foldlM
        (fun graph call => graph.link call.1 call.2.1 call.2.2) graph := by
  induction ids generalizing graph with
  | nil => rfl
  | cons id ids ih =>
    rw [List.foldlM_cons, List.flatMap_cons, List.foldlM_append, add_edges_eq]
    exact bind_congr fun graph' => ih graph'

theorem get_node_isSome {graph : LineageGraph P} {asset_id : AssetId} {node : Option LineageNode}
    (h : graph.get_node asset_id = some node) (hindex : (graph.asset_to_node asset_id).isSome) :
    node.isSome = true := by
  obtain ⟨idx, hidx⟩ := Option.isSome_iff_exists.mp hindex
  unfold LineageGraph.get_node at h
  rw [hidx] at h
  obtain ⟨weight, -, rfl⟩ := Option.map_eq_some_iff.mp h
  rfl

/-- An edge that has been added stays. -/
theorem link_spec (hedges : P.CountsEdges) {graph graph' : LineageGraph P}
    {from_id to_id : AssetId} {dependency_type : String}
    (h : graph.link from_id to_id dependency_type = some graph') (d : Direction) (i j : Nat) :
    graph'.asset_to_node = graph.asset_to_node ∧
      (P.neighbors_directed graph.graph i d).count j +
          (if graph.asset_to_node (d.near from_id to_id) = some i ∧
            graph.asset_to_node (d.far from_id to_id) = some j then 1 else 0) ≤
        (P.neighbors_directed graph'.graph i d).count j := by
  obtain ⟨from_node, hfrom, h⟩ := Option.bind_eq_some_iff.mp h
  obtain ⟨to_node, hto, h⟩ := Option.bind_eq_some_iff.mp h
  split at h
  · obtain ⟨result, hresult, hgraph⟩ := Option.map_eq_some_iff.mp h
    cases result with
    | ok graph₁ =>
      obtain rfl : graph₁ = graph' := hgraph
      obtain ⟨from_idx, to_idx, hfrom_idx, hto_idx, hadd, hindex⟩ := add_edge_eq_ok hresult
      obtain ⟨hnear, hfar⟩ := near_index d hfrom_idx hto_idx
      refine ⟨hindex, ?_⟩
      rw [hedges _ _ _ _ _ hadd i j d, hnear, hfar]
      apply Nat.add_le_add_left
      by_cases hends : some (d.near from_idx to_idx) = some i ∧
          some (d.far from_idx to_idx) = some j
      · rw [if_pos hends, if_pos ⟨(Option.some.inj hends.1).symm, (Option.some.inj hends.2).symm⟩]
      · rw [if_neg hends]
        exact Nat.zero_le _
    | error e =>
      obtain rfl : graph = graph' := hgraph
      obtain ⟨missing, hends, hnone, -⟩ := add_edge_eq_error hresult
      refine ⟨rfl, ?_⟩
      have hnot : ¬ (graph.asset_to_node (d.near from_id to_id) = some i ∧
          graph.asset_to_node (d.far from_id to_id) = some j) := by
        intro hboth
        rcases hends with rfl | rfl <;> cases d <;>
          simp_all [Direction.near, Direction.far]
      rw [if_neg hnot]
      exact le_rfl
  · next hnodes =>
    obtain rfl : graph = graph' := Option.some.inj h
    refine ⟨rfl, ?_⟩
    have hnot : ¬ (graph.asset_to_node (d.near from_id to_id) = some i ∧
        graph.asset_to_node (d.far from_id to_id) = some j) := by
      intro hboth
      apply hnodes
      have hindexed : (graph.asset_to_node from_id).isSome ∧
          (graph.asset_to_node to_id).isSome := by
        cases d
        · exact ⟨Option.isSome_of_mem hboth.1, Option.isSome_of_mem hboth.2⟩
        · exact ⟨Option.isSome_of_mem hboth.2, Option.isSome_of_mem hboth.1⟩
      rw [get_node_isSome hfrom hindexed.1, get_node_isSome hto hindexed.2]
      rfl
    rw [if_neg hnot]
    exact le_rfl

/-- The edges from one asset to another that these calls are to add. -/
def between (from_id to_id : AssetId) (call : AssetId × AssetId × String) : Bool :=
  call.1 = from_id && call.2.1 = to_id

theorem foldlM_link_spec (hedges : P.CountsEdges) {edges : List (AssetId × AssetId × String)}
    {graph graph' : LineageGraph P} {from_id to_id : AssetId} {d : Direction} {i j : Nat}
    (hnear : graph.asset_to_node (d.near from_id to_id) = some i)
    (hfar : graph.asset_to_node (d.far from_id to_id) = some j)
    (h : edges.foldlM (fun graph call => graph.link call.1 call.2.1 call.2.2) graph =
      some graph') :
    graph'.asset_to_node = graph.asset_to_node ∧
      edges.countP (between from_id to_id) ≤ (P.neighbors_directed graph'.graph i d).count j := by
  have hle : graph'.asset_to_node = graph.asset_to_node ∧
      edges.countP (between from_id to_id) + (P.neighbors_directed graph.graph i d).count j ≤
        (P.neighbors_directed graph'.graph i d).count j := by
    induction edges generalizing graph with
    | nil =>
      cases h
      exact ⟨rfl, by simp⟩
    | cons call edges ih =>
      rw [List.foldlM_cons] at h
      obtain ⟨next, hlink, hrest⟩ := Option.bind_eq_some_iff.mp h
      obtain ⟨hindex, hcount⟩ := link_spec hedges hlink d i j
      obtain ⟨hindex', hcount'⟩ := ih (hindex ▸ hnear) (hindex ▸ hfar) hrest
      refine ⟨hindex'.trans hindex, ?_⟩
      rw [List.countP_cons]
      by_cases hbetween : between from_id to_id call = true
      · obtain ⟨hfrom, hto⟩ : call.1 = from_id ∧ call.2.1 = to_id := by
          simpa [between] using hbetween
        rw [hfrom, hto, if_pos ⟨hnear, hfar⟩] at hcount
        rw [if_pos hbetween]
        omega
      · rw [if_neg hbetween]
        omega
  exact ⟨hle.1, by omega⟩

theorem flatMap_calls_length {ids visited : List Uuid} (h : (visited ++ ids).Nodup) :
    (ids.flatMap (calls reads)).length +
        pending (db.visible_dependencies tenant_id) (visited ++ ids) =
      pending (db.visible_dependencies tenant_id) visited := by
  induction ids generalizing visited with
  | nil => simp
  | cons id ids ih =>
    have hassoc : visited ++ id :: ids = (visited ++ [id]) ++ ids := by simp
    rw [hassoc] at h ⊢
    have hnew : id ∉ visited := by
      have hnodup := (List.nodup_append.mp h).1
      exact fun hmem => (List.nodup_append.mp hnodup).2.2 id hmem id (by simp) rfl
    have hpending := @pending_visit db tenant_id reads id visited hnew
    have hlength : (calls reads id).length = (ends reads id).length := by
      simp [calls, ends]
    have hrest := ih h
    rw [List.flatMap_cons, List.length_append]
    omega

theorem get_node_of_reachable (hP : P.Lawful capacity) {graph : LineageGraph P}
    (hG : Reachable (lineage_system P) graph) (asset_id : AssetId) :
    ∃ node, graph.get_node asset_id = some node := by
  unfold LineageGraph.get_node
  cases hindex : graph.asset_to_node asset_id with
  | none => exact ⟨none, rfl⟩
  | some idx =>
    obtain ⟨node, hnode, -⟩ := LineageGraph.node_of_index hP hG hindex
    exact ⟨some node, congrArg (Option.map some) hnode⟩

/-- An edge is added if the graph has room. -/
theorem link_isSome (hP : P.Lawful capacity) {graph : LineageGraph P}
    (hG : Reachable (lineage_system P) graph) (hroom : P.edge_count graph.graph < capacity)
    (from_id to_id : AssetId) (dependency_type : String) :
    ∃ graph', graph.link from_id to_id dependency_type = some graph' ∧
      Reachable (lineage_system P) graph' ∧
      P.edge_count graph'.graph ≤ P.edge_count graph.graph + 1 := by
  obtain ⟨from_node, hfrom⟩ := get_node_of_reachable hP hG from_id
  obtain ⟨to_node, hto⟩ := get_node_of_reachable hP hG to_id
  unfold LineageGraph.link
  rw [hfrom, Option.bind_some, hto, Option.bind_some]
  split
  · obtain ⟨tr, hrun⟩ := hG
    cases hadd : graph.add_edge from_id to_id ⟨dependency_type⟩ with
    | none =>
      unfold LineageGraph.add_edge at hadd
      cases hfrom_idx : graph.asset_to_node from_id with
      | none => simp [hfrom_idx] at hadd
      | some from_idx =>
        cases hto_idx : graph.asset_to_node to_id with
        | none => simp [hfrom_idx, hto_idx] at hadd
        | some to_idx =>
          have hrep := represents_of_run hP hrun
          have hsome := hP.add_edge_isSome graph.graph from_idx to_idx ⟨dependency_type⟩
            (hrep.index_lt hP hfrom_idx) (hrep.index_lt hP hto_idx) hroom
          simp only [hfrom_idx, hto_idx, Option.map_eq_none_iff] at hadd
          rw [hadd] at hsome
          cases hsome
    | some result =>
      have hstep : (lineage_system P).next graph (.add_edge from_id to_id ⟨dependency_type⟩) =
          some (result.toOption.getD graph) := by
        show (graph.add_edge from_id to_id ⟨dependency_type⟩).map _ = _
        rw [hadd]
        rfl
      refine ⟨_, rfl, ⟨_, .step _ hrun hstep⟩, ?_⟩
      cases result with
      | ok graph' =>
        obtain ⟨_, _, -, -, hgraph, -⟩ := add_edge_eq_ok hadd
        exact (hP.add_edge_count _ _ _ _ _ hgraph).2.le
      | error e => exact Nat.le_succ _
  · exact ⟨graph, rfl, hG, Nat.le_succ _⟩

theorem foldlM_link_isSome (hP : P.Lawful capacity)
    {edges : List (AssetId × AssetId × String)} {graph : LineageGraph P}
    (hG : Reachable (lineage_system P) graph)
    (hroom : P.edge_count graph.graph + edges.length ≤ capacity) :
    ∃ graph', edges.foldlM (fun graph call => graph.link call.1 call.2.1 call.2.2) graph =
      some graph' := by
  induction edges generalizing graph with
  | nil => exact ⟨graph, rfl⟩
  | cons call edges ih =>
    rw [List.length_cons] at hroom
    obtain ⟨next, hlink, hnext, hcount⟩ :=
      link_isSome hP hG (by omega) call.1 call.2.1 call.2.2
    rw [List.foldlM_cons, hlink]
    exact ih hnext (by omega)

/-- Each dependency is read from both ends. -/
theorem two_calls {dep : AssetDependencyModel} {ids : List Uuid}
    (hdep : dep ∈ db.visible_dependencies tenant_id) (hup : dep.upstream_asset_id ∈ ids)
    (hdown : dep.downstream_asset_id ∈ ids) :
    2 ≤ (ids.flatMap (calls reads)).countP
      (between ⟨dep.upstream_asset_id⟩ ⟨dep.downstream_asset_id⟩) := by
  obtain ⟨p, hp⟩ : ∃ p, p = between ⟨dep.upstream_asset_id⟩ ⟨dep.downstream_asset_id⟩ := ⟨_, rfl⟩
  obtain ⟨ups, hups⟩ : ∃ ups : Uuid → List (AssetId × AssetId × String),
      ups = fun id => (reads.upstream id).map
        (fun dep => (⟨dep.upstream_asset_id⟩, ⟨id⟩, dep.dependency_type)) := ⟨_, rfl⟩
  obtain ⟨downs, hdowns⟩ : ∃ downs : Uuid → List (AssetId × AssetId × String),
      downs = fun id => (reads.downstream id).map
        (fun dep => (⟨id⟩, ⟨dep.downstream_asset_id⟩, dep.dependency_type)) := ⟨_, rfl⟩
  have hsplit : (ids.flatMap (calls reads)).countP p =
      (ids.flatMap ups).countP p + (ids.flatMap downs).countP p := by
    have hcalls : calls reads = fun id => ups id ++ downs id := by
      rw [hups, hdowns]
      rfl
    rw [hcalls]
    clear hup hdown
    induction ids with
    | nil => rfl
    | cons id ids ih =>
      rw [List.flatMap_cons, List.flatMap_cons, List.flatMap_cons, List.countP_append,
        List.countP_append, List.countP_append, List.countP_append, ih]
      omega
  have hfirst : 0 < (ids.flatMap ups).countP p := by
    apply List.countP_pos_iff.mpr
    refine ⟨(⟨dep.upstream_asset_id⟩, ⟨dep.downstream_asset_id⟩, dep.dependency_type), ?_, ?_⟩
    · rw [hups]
      apply List.mem_flatMap.mpr
      refine ⟨dep.downstream_asset_id, hdown, List.mem_map.mpr ⟨dep, ?_, rfl⟩⟩
      exact (LineageQueue.mem_upstream _ dep).mpr ⟨hdep, rfl⟩
    · simp [hp, between]
  have hsecond : 0 < (ids.flatMap downs).countP p := by
    apply List.countP_pos_iff.mpr
    refine ⟨(⟨dep.upstream_asset_id⟩, ⟨dep.downstream_asset_id⟩, dep.dependency_type), ?_, ?_⟩
    · rw [hdowns]
      apply List.mem_flatMap.mpr
      refine ⟨dep.upstream_asset_id, hup, List.mem_map.mpr ⟨dep, ?_, rfl⟩⟩
      exact (LineageQueue.mem_downstream _ dep).mpr ⟨hdep, rfl⟩
    · simp [hp, between]
  rw [← hp, hsplit]
  omega

end pass

end LineageBuild

/-! ### What is reported -/

section report
open LTS LineageCalls
variable {P : DiGraph LineageNode LineageEdge} {capacity : Nat} {db : Metadata}
  {tenant_id : TenantId} {reads reads' : LineageReads db tenant_id}
  {visited_order : HashOrder Uuid} {cache_order : HashOrder (Uuid × String × String)}
  {start : Uuid} {graph : LineageGraph P}

/-- The two passes. -/
theorem build_eq_some
    (h : build_lineage_graph reads reads' visited_order cache_order start false false =
      some graph) (hP : P.Lawful capacity) :
    ∃ s : LineageBuild P, LineageBuild.Walked reads start s ∧ s.to_visit = [] ∧
      ((visited_order.order s.visited).flatMap (LineageBuild.calls reads')).foldlM
        (fun graph call => graph.link call.1 call.2.1 call.2.2) s.graph = some graph := by
  obtain ⟨s, hrun, h⟩ := Option.bind_eq_some_iff.mp h
  obtain ⟨cached, hcached, hedges⟩ := Option.bind_eq_some_iff.mp h
  obtain ⟨hwalked, hempty⟩ := (LineageBuild.walked_start hP reads start).run hP hrun
  have hvisited : ∀ e ∈ cache_order.order s.asset_cache, e.1 ∈ s.visited := by
    intro e he
    rcases hwalked.cached e ((cache_order.perm _).mem_iff.mp he) with hmem | hmem
    · exact hmem
    · rw [hempty] at hmem
      cases hmem
  rw [LineageBuild.add_cached_of_visited hvisited] at hcached
  obtain rfl := Option.some.inj hcached
  refine ⟨s, hwalked, hempty, ?_⟩
  rw [← LineageBuild.foldlM_add_edges_eq]
  exact hedges

/-- Both passes come to their end, if the graph has room. -/
theorem build_isSome (hP : P.Lawful capacity)
    (hroom : 2 * (db.visible_dependencies tenant_id).length + 1 ≤ capacity) :
    ∃ graph : LineageGraph P,
      build_lineage_graph reads reads' visited_order cache_order start false false =
        some graph := by
  have hpending : ∀ rows, LineageBuild.pending rows [] = 2 * rows.length := by
    intro rows
    simp [LineageBuild.pending, Nat.two_mul]
  have hwalked := @LineageBuild.walked_start P capacity db tenant_id hP reads start
  obtain ⟨s, hrun⟩ : ∃ s, LineageBuild.run reads true true
      (2 * (db.visible_dependencies tenant_id).length + 1) ⟨.new, [], [start], []⟩ = some s := by
    apply hwalked.run_isSome hP
    · rw [List.length_nil]
      omega
    · rw [hpending, List.length_singleton]
      omega
  obtain ⟨hwalked', hempty⟩ := hwalked.run hP hrun
  have hvisited : ∀ e ∈ cache_order.order s.asset_cache, e.1 ∈ s.visited := by
    intro e he
    rcases hwalked'.cached e ((cache_order.perm _).mem_iff.mp he) with hmem | hmem
    · exact hmem
    · rw [hempty] at hmem
      cases hmem
  have hnodup : ([] ++ visited_order.order s.visited).Nodup :=
    (visited_order.perm _).nodup_iff.mpr hwalked'.nodup
  have hlength := @LineageBuild.flatMap_calls_length db tenant_id reads' _ _ hnodup
  rw [hpending] at hlength
  have hedges : P.edge_count s.graph.graph +
      ((visited_order.order s.visited).flatMap (LineageBuild.calls reads')).length ≤ capacity := by
    rw [hwalked'.edges]
    omega
  obtain ⟨graph, hgraph⟩ := LineageBuild.foldlM_link_isSome hP hwalked'.reachable hedges
  refine ⟨graph, ?_⟩
  unfold build_lineage_graph
  simp only [Bool.not_false, Bool.or_true]
  rw [hrun, Option.bind_eq_bind, Option.bind_some, LineageBuild.add_cached_of_visited hvisited,
    Option.bind_eq_bind, Option.bind_some, LineageBuild.foldlM_add_edges_eq]
  exact hgraph

/-- **A neighbor of the start is there twice.** -/
theorem not_nodup_of_touches (hP : P.Lawful capacity) (hedges : P.CountsEdges)
    (h : build_lineage_graph reads reads' visited_order cache_order start false false =
      some graph)
    {dep : AssetDependencyModel} (hdep : dep ∈ db.visible_dependencies tenant_id)
    (htouch : dep.touches start = true) :
    ∃ direction start_idx, graph.asset_to_node ⟨start⟩ = some start_idx ∧
      ¬ (graph.next_nodes direction start_idx).Nodup := by
  obtain ⟨s, hwalked, hempty, hedges'⟩ := build_eq_some h hP
  have hall : ∀ v, v ∈ s.visited ∨ v ∈ s.to_visit → v ∈ s.visited := by
    intro v hv
    rw [hempty] at hv
    exact hv.resolve_right List.not_mem_nil
  -- the policy shows both assets
  have hvisible := (List.mem_filter.mp hdep).2
  rw [Metadata.dependency_visible, Bool.and_eq_true] at hvisible
  have hends : dep.upstream_asset_id = start ∨ dep.downstream_asset_id = start := by
    simpa [AssetDependencyModel.touches] using htouch
  have hstart := hall start hwalked.rooted
  have hup : dep.upstream_asset_id ∈ s.visited := by
    rcases hends with heq | heq
    · rw [heq]
      exact hstart
    · apply hall
      apply hwalked.closed start hstart (heq ▸ hvisible.2)
      apply List.mem_append_left
      exact List.mem_map.mpr ⟨dep, (LineageQueue.mem_upstream _ _).mpr ⟨hdep, heq⟩, rfl⟩
  have hdown : dep.downstream_asset_id ∈ s.visited := by
    rcases hends with heq | heq
    · apply hall
      apply hwalked.closed start hstart (heq ▸ hvisible.1)
      apply List.mem_append_right
      exact List.mem_map.mpr ⟨dep, (LineageQueue.mem_downstream _ _).mpr ⟨hdep, heq⟩, rfl⟩
    · rw [heq]
      exact hstart
  obtain ⟨up_idx, hup_idx⟩ :=
    Option.isSome_iff_exists.mp (hwalked.indexed _ hup hvisible.1)
  obtain ⟨down_idx, hdown_idx⟩ :=
    Option.isSome_iff_exists.mp (hwalked.indexed _ hdown hvisible.2)
  have htwo : 2 ≤ ((visited_order.order s.visited).flatMap (LineageBuild.calls reads')).countP
      (LineageBuild.between ⟨dep.upstream_asset_id⟩ ⟨dep.downstream_asset_id⟩) :=
    LineageBuild.two_calls hdep ((visited_order.perm _).mem_iff.mpr hup)
      ((visited_order.perm _).mem_iff.mpr hdown)
  obtain ⟨d, hd⟩ : ∃ d : Direction,
      d.near dep.upstream_asset_id dep.downstream_asset_id = start := by
    rcases hends with heq | heq
    · exact ⟨.outgoing, heq⟩
    · exact ⟨.incoming, heq⟩
  obtain ⟨hnear, hfar⟩ := near_index d hup_idx hdown_idx
  obtain ⟨hindex, hcount⟩ := LineageBuild.foldlM_link_spec hedges hnear hfar hedges'
  refine ⟨d, d.near up_idx down_idx, ?_, ?_⟩
  · rw [hindex, ← hnear, ← hd]
    cases d <;> rfl
  · intro hnodup
    have hone := List.nodup_iff_count_le_one.mp hnodup (d.far up_idx down_idx)
    exact absurd (htwo.trans (hcount.trans hone)) (by decide)

/-- So that neighbor is listed twice. -/
theorem not_reports_of_touches (hP : P.Lawful capacity) (hedges : P.CountsEdges)
    (h : build_lineage_graph reads reads' visited_order cache_order start false false =
      some graph)
    {dep : AssetDependencyModel} (hdep : dep ∈ db.visible_dependencies tenant_id)
    (htouch : dep.touches start = true) :
    ¬ ReportsStored (db.visible_dependencies tenant_id) start graph := by
  intro hreports
  obtain ⟨direction, start_idx, hstart, hnodup⟩ := not_nodup_of_touches hP hedges h hdep htouch
  obtain ⟨result, hresult, hstored⟩ : ∃ result,
      graph.traverse_with_depth direction none ⟨start⟩ = some result ∧
        ListsStored (db.visible_dependencies tenant_id) direction start result := by
    cases direction with
    | incoming => exact hreports.ancestors
    | outgoing => exact hreports.descendants
  obtain ⟨later, entries, result', hresult', hperm, hlisting⟩ :=
    @LineageGraph.traverse_with_depth_listing P capacity graph direction none ⟨start⟩ start_idx hP
      hstart
  obtain rfl := Option.some.inj (hresult.symm.trans hresult')
  have hentries : (entries.map Prod.fst).Nodup := (hperm.map _).nodup_iff.mp hstored.nodup
  exact hnodup (LineageGraph.simple_of_nodup hlisting hentries).1

theorem stored_next_of_untouched {rows : List AssetDependencyModel}
    (h : ∀ dep ∈ rows, ¬ dep.touches start = true) (direction : Direction) :
    stored_next rows direction start = [] := by
  have hends : ∀ dep ∈ rows, dep.upstream_asset_id ≠ start ∧ dep.downstream_asset_id ≠ start := by
    intro dep hdep
    have hnot := h dep hdep
    simpa [AssetDependencyModel.touches] using hnot
  cases direction with
  | incoming =>
    have hnone : rows.filter (·.downstream_asset_id = start) = [] := by
      apply List.filter_eq_nil_iff.mpr
      intro dep hdep
      simpa using (hends dep hdep).2
    rw [stored_next, hnone]
    rfl
  | outgoing =>
    have hnone : rows.filter (·.upstream_asset_id = start) = [] := by
      apply List.filter_eq_nil_iff.mpr
      intro dep hdep
      simpa using (hends dep hdep).1
    rw [stored_next, hnone]
    rfl

/-- No path leads away from an asset without dependencies. -/
theorem not_distance_of_empty {succ : Uuid → List Uuid} (h : succ start = []) (id : Uuid)
    (depth : Nat) : ¬ Distance succ start id depth := by
  intro hdistance
  have hpos := hdistance.pos
  have hsteps := hdistance.steps
  have hfirst : ∀ n v, 0 < n → Steps succ n start v → False := by
    intro n
    induction n with
    | zero =>
      intro v hn _
      exact absurd hn (Nat.lt_irrefl 0)
    | succ n ih =>
      intro v _ hv
      obtain ⟨w, hw, hmem⟩ := hv
      by_cases hzero : n = 0
      · subst hzero
        obtain rfl : start = w := hw
        rw [h] at hmem
        cases hmem
      · exact ih w (Nat.pos_of_ne_zero hzero) hw
  exact hfirst depth id hpos hsteps

/-- A graph in which the start has no neighbors. -/
theorem reports_of_no_neighbors {rows : List AssetDependencyModel}
    (h : ∀ dep ∈ rows, ¬ dep.touches start = true)
    (hgraph : ∀ i d, P.neighbors_directed graph.graph i d = []) :
    ReportsStored rows start graph := by
  have hempty : ∀ direction, graph.traverse_with_depth direction none ⟨start⟩ = some [] := by
    intro direction
    unfold LineageGraph.traverse_with_depth
    cases graph.asset_to_node ⟨start⟩ with
    | none => rfl
    | some start_idx =>
      simp only [hgraph]
      rw [List.map_nil, LineageGraph.traverse_loop]
      rfl
  have hnone : ∀ direction id depth,
      ¬ Distance (stored_next rows direction) start id depth := fun direction =>
    not_distance_of_empty (stored_next_of_untouched h direction)
  have hlists : ∀ direction, ListsStored rows direction start [] := by
    intro direction
    exact ⟨List.nodup_nil, fun id depth => iff_of_false List.not_mem_nil (hnone direction id depth)⟩
  have hcount : ∀ direction,
      0 = {id | ∃ depth, Distance (stored_next rows direction) start id depth}.ncard := by
    intro direction
    have hset : {id | ∃ depth, Distance (stored_next rows direction) start id depth} = ∅ := by
      apply Set.eq_empty_of_forall_notMem
      intro id hid
      obtain ⟨depth, hdistance⟩ := hid
      exact hnone direction id depth hdistance
    rw [hset, Set.ncard_empty]
  refine ⟨⟨[], hempty .incoming, hlists .incoming⟩, ⟨[], hempty .outgoing, hlists .outgoing⟩, ?_⟩
  refine ⟨⟨⟨start⟩, 0, 0, [], [], 0, 0⟩, ?_, hcount .incoming, hcount .outgoing⟩
  simp [LineageGraph.full_lineage, ancestors_with_depth, descendants_with_depth, hempty]

/-- An asset without dependencies is visited, and nothing else. -/
theorem build_of_untouched (hP : P.Lawful capacity) (hroom : 0 < capacity)
    (h : ∀ dep ∈ db.visible_dependencies tenant_id, ¬ dep.touches start = true) :
    ∃ graph : LineageGraph P,
      build_lineage_graph reads reads' visited_order cache_order start false false =
        some graph ∧ ∀ i d, P.neighbors_directed graph.graph i d = [] := by
  have hends : LineageBuild.ends reads start = [] := by
    apply List.eq_nil_iff_forall_not_mem.mpr
    intro v hv
    rw [LineageBuild.ends, List.mem_append] at hv
    rcases hv with hv | hv
    · obtain ⟨dep, hdep, -⟩ := List.mem_map.mp hv
      obtain ⟨hrow, heq⟩ := (LineageQueue.mem_upstream _ _).mp hdep
      exact h dep hrow (by simp [AssetDependencyModel.touches, heq])
    · obtain ⟨dep, hdep, -⟩ := List.mem_map.mp hv
      obtain ⟨hrow, heq⟩ := (LineageQueue.mem_downstream _ _).mp hdep
      exact h dep hrow (by simp [AssetDependencyModel.touches, heq])
  have hcalls : LineageBuild.calls reads' start = [] := by
    apply List.eq_nil_iff_forall_not_mem.mpr
    intro call hcall
    rw [LineageBuild.calls, List.mem_append] at hcall
    rcases hcall with hcall | hcall
    · obtain ⟨dep, hdep, -⟩ := List.mem_map.mp hcall
      obtain ⟨hrow, heq⟩ := (LineageQueue.mem_upstream _ _).mp hdep
      exact h dep hrow (by simp [AssetDependencyModel.touches, heq])
    · obtain ⟨dep, hdep, -⟩ := List.mem_map.mp hcall
      obtain ⟨hrow, heq⟩ := (LineageQueue.mem_downstream _ _).mp hdep
      exact h dep hrow (by simp [AssetDependencyModel.touches, heq])
  -- the first pass visits the start alone
  obtain ⟨s, hrun, hvisited, hcached, hneighbors⟩ : ∃ s : LineageBuild P,
      LineageBuild.run reads true true (2 * (db.visible_dependencies tenant_id).length + 1)
        ⟨.new, [], [start], []⟩ = some s ∧ s.visited = [start] ∧
      (∀ e ∈ s.asset_cache, e.1 ∈ s.visited) ∧
      ∀ i d, P.neighbors_directed s.graph.graph i d = [] := by
    rw [LineageBuild.run_front rfl]
    have hspec := @LineageBuild.visit_spec P capacity db tenant_id reads hP ⟨.new, [], [], []⟩ start
    generalize LineageBuild.visit reads true true (⟨.new, [], [], []⟩ : LineageBuild P) start =
      visited at hspec
    cases hspec with
    | again hvisited => cases hvisited
    | skip hnew hhidden =>
      exact ⟨_, LineageBuild.run_empty rfl, rfl, by simp, fun i d => hP.neighbors_new i d⟩
    | full hnew hcount =>
      change capacity ≤ P.node_count P.new at hcount
      rw [hP.node_count_new] at hcount
      omega
    | add hnew node hid graph idx hadd asset_cache hcache =>
      have hto_visit : ([] : List Uuid) ++
          (LineageBuild.ends reads start).filter (· ∉ ([] : List Uuid) ++ [start]) = [] := by
        rw [hends]
        rfl
      refine ⟨_, LineageBuild.run_empty hto_visit, rfl, ?_, ?_⟩
      · intro e he
        rcases hcache e he with hmem | heq | hmem
        · cases hmem
        · exact List.mem_singleton.mpr heq
        · rw [hends] at hmem
          cases hmem
      · intro i d
        show P.neighbors_directed graph.graph i d = []
        rw [hP.add_node_neighbors _ _ _ _ (add_node_eq_some hadd).1]
        exact hP.neighbors_new i d
  refine ⟨s.graph, ?_, hneighbors⟩
  unfold build_lineage_graph
  simp only [Bool.not_false, Bool.or_true]
  rw [hrun, Option.bind_eq_bind, Option.bind_some,
    LineageBuild.add_cached_of_visited fun e he =>
      hcached e ((cache_order.perm _).mem_iff.mp he)]
  have horder : visited_order.order s.visited = [start] := by
    rw [hvisited]
    exact List.perm_singleton.mp (visited_order.perm _)
  rw [Option.bind_eq_bind, Option.bind_some, LineageBuild.foldlM_add_edges_eq, horder,
    List.flatMap_singleton, hcalls]
  rfl

/-- **The command reports the stored graph** exactly of assets without dependencies. -/
theorem lineage_command_exact_iff (hP : P.Lawful capacity) (hedges : P.CountsEdges)
    (hroom : 0 < capacity) (reads reads' : LineageReads db tenant_id)
    (visited_order : HashOrder Uuid) (cache_order : HashOrder (Uuid × String × String))
    (start : Uuid) :
    (∃ graph : LineageGraph P,
      build_lineage_graph reads reads' visited_order cache_order start false false =
        some graph ∧ ReportsStored (db.visible_dependencies tenant_id) start graph) ↔
      ∀ dep ∈ db.visible_dependencies tenant_id, ¬ dep.touches start = true := by
  constructor
  · intro h dep hdep htouch
    obtain ⟨graph, hbuild, hreports⟩ := h
    exact not_reports_of_touches hP hedges hbuild hdep htouch hreports
  · intro h
    obtain ⟨graph, hbuild, hneighbors⟩ :=
      @build_of_untouched P capacity db tenant_id reads reads' visited_order cache_order start hP
        hroom h
    exact ⟨graph, hbuild, reports_of_no_neighbors h hneighbors⟩

/-! ### Two assets and a dependency -/

/-- An asset of no tenant. -/
def shared_asset (id : Uuid) (name : String) : AssetModel :=
  ⟨id, name, none, "table", none, [], none, none, none, none, 0, 0⟩

/-- Asset `2` depends on asset `1`, and asset `3` on nothing. -/
def one_dependency : Metadata where
  assets := ⟨[shared_asset 1 "raw_orders", shared_asset 2 "orders", shared_asset 3 "customers"],
    by decide, by decide⟩
  workflows := Table.empty _ _
  executions := Table.empty _ _
  asset_dependencies := ⟨[⟨4, 1, 2, "data", 0⟩], by decide, by decide⟩
  asset_checks := Table.empty _ _
  workflow_assets := Table.empty _ _

/-- The keys in the order in which they have come. -/
def insertion_order (α : Type) : HashOrder α := ⟨id, fun keys => .refl keys⟩

theorem lonely_asset_reported :
    ∃ graph : LineageGraph list_graphs,
      build_lineage_graph (.in_order one_dependency "a") (.in_order one_dependency "a")
        (insertion_order _) (insertion_order _) 3 false false = some graph ∧
      ReportsStored (one_dependency.visible_dependencies "a") 3 graph := by
  have hP := DiGraph.lists_lawful LineageNode LineageEdge (2 ^ 32 - 1)
  have hedges := DiGraph.lists_counts_edges LineageNode LineageEdge (2 ^ 32 - 1)
  apply (lineage_command_exact_iff hP hedges (by decide) (.in_order one_dependency "a")
    (.in_order one_dependency "a") (insertion_order _) (insertion_order _) 3).mpr
  decide

/-- Asset `2` is listed twice as a descendant of asset `1`. -/
theorem dependency_listed_twice :
    ¬ ∀ (P : DiGraph LineageNode LineageEdge) (capacity : Nat), P.Lawful capacity →
      P.CountsEdges → ∀ (db : Metadata) (tenant_id : TenantId),
      2 * (db.visible_dependencies tenant_id).length + 1 ≤ capacity →
      ∀ (reads reads' : LineageReads db tenant_id) (visited_order : HashOrder Uuid)
        (cache_order : HashOrder (Uuid × String × String)) (start : Uuid),
      ∃ graph : LineageGraph P,
        build_lineage_graph reads reads' visited_order cache_order start false false =
          some graph ∧ ReportsStored (db.visible_dependencies tenant_id) start graph := by
  intro hall
  obtain ⟨graph, hbuild, hreports⟩ := hall list_graphs _ (DiGraph.lists_lawful _ _ _)
    (DiGraph.lists_counts_edges _ _ _) one_dependency "a" (by decide) (.in_order one_dependency "a")
    (.in_order one_dependency "a") (insertion_order _) (insertion_order _) 1
  obtain ⟨result, hresult, hlists⟩ := hreports.descendants
  have hrun : (build_lineage_graph (.in_order one_dependency "a") (.in_order one_dependency "a")
      (insertion_order _) (insertion_order _) 1 false false).bind
        (fun graph : LineageGraph list_graphs => descendants_with_depth graph ⟨1⟩ none) =
      some [(⟨2⟩, 1), (⟨2⟩, 1)] := by decide +kernel
  rw [hbuild, Option.bind_some, hresult] at hrun
  obtain rfl := Option.some.inj hrun
  exact absurd hlists.nodup (by decide)

end report

end Servo
