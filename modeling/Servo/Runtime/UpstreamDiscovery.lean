import Servo.Framework.BreadthFirst
import Servo.Runtime.JobReturns
import Mathlib.Data.Set.Card

/-! # What Discovery Finds

    `discover_upstream_assets` is a breadth-first search from the target: the
    depth of an asset is its distance, and unless the search comes to its
    limit of assets, it finds all that are near enough.

    The target counts as visited. A cycle that leads back to it, or one among
    the assets upstream of it, makes no difference; only a dependency of the
    target on itself is an error.
-/

namespace Servo

open BreadthFirst

/-- The answers of a database in which no read fails. -/
def dependency_graph (names : List (Uuid × String)) (deps : Uuid → List Uuid) : DependencyReads :=
  ⟨.ok names, fun asset_id => .ok (deps asset_id)⟩

/-- The search looks at the dependencies of assets at this depth. -/
def looks_beyond (max_depth : Int) (depth : Nat) : Prop := max_depth < 0 ∨ (depth : Int) < max_depth

/-- A discovered asset, with its name. -/
def named (names : List (Uuid × String)) (found : Uuid × Nat) : UpstreamAsset :=
  (found.1, ((names.find? (fun a => a.1 = found.1)).map (·.2)).getD
    ("asset-" ++ found.1.to_string), (found.2 : Int))

/-- A queue with natural depths, as the code has it. -/
def as_queue (queue : List (Uuid × Nat)) : List (Uuid × Int) :=
  queue.map fun p => (p.1, (p.2 : Int))

theorem as_queue_append (queue : List (Uuid × Nat)) (new : List Uuid) (depth : Nat) :
    as_queue (queue ++ new.map fun v => (v, depth)) =
      as_queue queue ++ new.map fun v => (v, (depth : Int)) := by
  unfold as_queue
  rw [List.map_append, List.map_map]
  rfl

/-- The dependencies that are enqueued are those that have not been visited, each once. -/
theorem enqueue_unvisited_spec (depth : Int) (deps : List Uuid) (queue : List (Uuid × Int))
    (visited : List Uuid) :
    ∃ new : List Uuid, new.Nodup ∧ (∀ v, v ∈ new ↔ v ∈ deps ∧ v ∉ visited) ∧
      (enqueue_unvisited depth deps queue visited).1 = queue ++ new.map (fun v => (v, depth)) ∧
      ∀ v, v ∈ (enqueue_unvisited depth deps queue visited).2 ↔ v ∈ visited ∨ v ∈ deps := by
  induction deps generalizing queue visited with
  | nil => exact ⟨[], List.nodup_nil, by simp, by simp [enqueue_unvisited],
      by simp [enqueue_unvisited]⟩
  | cons dep deps ih =>
    rw [enqueue_unvisited_cons]
    by_cases hvisited : dep ∈ visited
    · rw [if_pos (by simpa using hvisited)]
      obtain ⟨new, hnodup, hnew, hqueue, hall⟩ := ih queue visited
      refine ⟨new, hnodup, fun v => ?_, hqueue, fun v => ?_⟩
      · rw [hnew, List.mem_cons]
        constructor
        · exact fun h => ⟨.inr h.1, h.2⟩
        · rintro ⟨rfl | hv, hnot⟩
          · exact absurd hvisited hnot
          · exact ⟨hv, hnot⟩
      · rw [hall, List.mem_cons]
        constructor
        · exact fun h => h.imp_right .inr
        · rintro (hv | rfl | hv)
          · exact .inl hv
          · exact .inl hvisited
          · exact .inr hv
    · rw [if_neg (by simpa using hvisited)]
      obtain ⟨new, hnodup, hnew, hqueue, hall⟩ := ih (queue ++ [(dep, depth)]) (dep :: visited)
      -- `dep` is put into the queue, and counts as visited from here on
      refine ⟨dep :: new, List.nodup_cons.mpr ⟨fun hmem => ?_, hnodup⟩, fun v => ?_, ?_,
        fun v => ?_⟩
      · exact ((hnew dep).mp hmem).2 List.mem_cons_self
      · rw [List.mem_cons, hnew, List.mem_cons, List.mem_cons]
        constructor
        · rintro (rfl | ⟨hv, hnot⟩)
          · exact ⟨.inl rfl, hvisited⟩
          · exact ⟨.inr hv, fun hmem => hnot (.inr hmem)⟩
        · rintro ⟨rfl | hv, hnot⟩
          · exact .inl rfl
          · by_cases heq : v = dep
            · exact .inl heq
            · exact .inr ⟨hv, by simp [heq, hnot]⟩
      · rw [hqueue]
        simp
      · rw [hall, List.mem_cons, List.mem_cons]
        tauto

section discovery
variable {names : List (Uuid × String)} {deps : Uuid → List Uuid} {target : Uuid}
  {max_depth : Int}

/-- The invariant of the search. -/
abbrev Searched (deps : Uuid → List Uuid) (target : Uuid) (max_depth : Int) (visited : List Uuid)
    (done queue : List (Uuid × Nat)) : Prop :=
  Inv deps target (looks_beyond max_depth) (· = target) (· ∈ visited) done queue

/-- The loop: it comes to its end with an empty queue, or with as many assets as it may find. -/
theorem discover_loop_searched {capacity : Nat} {visited : List Uuid}
    {done queue : List (Uuid × Nat)} (h : Searched deps target max_depth visited done queue) :
    ∃ visited' done' queue',
      discover_loop (dependency_graph names deps) names max_depth capacity (as_queue queue) visited
        (done.map (named names)) = .ok (done'.map (named names)) ∧
      Searched deps target max_depth visited' done' queue' ∧
      done'.length ≤ done.length + capacity ∧
      (queue' = [] ∨ done'.length = done.length + capacity) := by
  induction capacity generalizing visited done queue with
  | zero => exact ⟨visited, done, queue, by rw [discover_loop], h, le_rfl, .inr rfl⟩
  | succ capacity ih =>
    cases queue with
    | nil => exact ⟨visited, done, [], by rw [as_queue, List.map_nil, discover_loop], h, by omega,
        .inl rfl⟩
    | cons node queue =>
      have hfound : done.map (named names) ++ [named names node] =
          (done ++ [node]).map (named names) := by simp
      have hlength : (done ++ [node]).length = done.length + 1 := by simp
      have hhead : as_queue (node :: queue) = (node.1, (node.2 : Int)) :: as_queue queue := rfl
      rw [hhead, discover_loop]
      by_cases hlook : max_depth < 0 ∨ (node.2 : Int) < max_depth
      · -- its dependencies are read and enqueued
        rw [if_pos hlook]
        obtain ⟨new, hnodup, hnew, hqueue, hall⟩ :=
          enqueue_unvisited_spec ((node.2 : Int) + 1) (deps node.1) (as_queue queue) visited
        have hinv := h.look hlook hnodup hnew hall
        obtain ⟨visited', done', queue', hloop, hinv', hle, hend⟩ := ih hinv
        refine ⟨visited', done', queue', ?_, hinv', by omega, hend.imp_right fun heq => by omega⟩
        rw [as_queue_append, ← hfound, Nat.cast_succ, ← hqueue] at hloop
        exact hloop
      · rw [if_neg hlook]
        obtain ⟨visited', done', queue', hloop, hinv', hle, hend⟩ := ih (h.pass hlook)
        refine ⟨visited', done', queue', ?_, hinv', by omega, hend.imp_right fun heq => by omega⟩
        rw [← hfound] at hloop
        exact hloop

/-- A discovery that does not fail at once is a search. -/
theorem discover_searched (names : List (Uuid × String)) (hdepth : max_depth ≠ 0)
    (hself : target ∉ deps target) :
    ∃ visited done queue,
      discover_upstream_assets (dependency_graph names deps) target max_depth =
        .ok ((done.map (named names)).insertionSort fun a b => b.2.2 ≤ a.2.2) ∧
      Searched deps target max_depth visited done queue ∧ done.length ≤ MAX_ASSETS ∧
      (queue = [] ∨ done.length = MAX_ASSETS) := by
  obtain ⟨new, hnodup, hnew, hqueue, hall⟩ :=
    enqueue_unvisited_spec 1 (deps target) [] [target]
  have hinv : Searched deps target max_depth
      (enqueue_unvisited 1 (deps target) [] [target]).2 [] (new.map fun v => (v, 1)) := by
    refine Inv.start (fun v hv => hv) hnodup (fun v => ?_) (fun v => ?_)
    · rw [hnew, List.mem_singleton]
    · rw [hall, List.mem_singleton]
  obtain ⟨visited, done, queue, hloop, hsearched, hle, hend⟩ :=
    @discover_loop_searched names deps target max_depth MAX_ASSETS _ _ _ hinv
  refine ⟨visited, done, queue, ?_, hsearched, by simpa using hle, by simpa using hend⟩
  have hstart : as_queue (new.map fun v => (v, 1)) =
      (enqueue_unvisited 1 (deps target) [] [target]).1 := by
    rw [hqueue]
    unfold as_queue
    rw [List.map_map]
    rfl
  rw [hstart, List.map_nil] at hloop
  unfold discover_upstream_assets
  rw [if_neg hdepth]
  simp only [dependency_graph] at hloop ⊢
  rw [if_neg (by simpa using hself), hloop]

/-- What is returned is what has been found. -/
theorem discovered_perm (done : List (Uuid × Nat)) :
    ((((done.map (named names)).insertionSort fun a b => b.2.2 ≤ a.2.2)).map (·.1)).Perm
      (done.map Prod.fst) := by
  refine ((List.perm_insertionSort _ _).map _).trans ?_
  rw [List.map_map]
  rfl

/-! ### What is found -/

/-- Looking beyond all depths before this one is to be within the limit. -/
theorem within_iff (hdepth : max_depth ≠ 0) {d : Nat} (hd : 0 < d) :
    (∀ j, 0 < j → j < d → looks_beyond max_depth j) ↔
      (max_depth < 0 ∨ (d : Int) ≤ max_depth) := by
  unfold looks_beyond
  constructor
  · intro h
    by_cases hneg : max_depth < 0
    · exact .inl hneg
    · by_cases hone : d = 1
      · exact .inr (by omega)
      · have := (h (d - 1) (by omega) (by omega)).resolve_left hneg
        exact .inr (by omega)
  · intro h j _ hj
    exact h.imp_right fun hle => by omega

/-- The assets within the limit, at their distance. -/
def within_limit (deps : Uuid → List Uuid) (target : Uuid) (max_depth : Int) (v : Uuid)
    (d : Nat) : Prop :=
  v ≠ target ∧ Distance deps target v d ∧ (max_depth < 0 ∨ (d : Int) ≤ max_depth)

/-- Everything that the search has seen is within the limit. -/
theorem within_limit_of_seen {visited : List Uuid} {done queue : List (Uuid × Nat)}
    (hdepth : max_depth ≠ 0) (h : Searched deps target max_depth visited done queue)
    {p : Uuid × Nat} (hp : p ∈ done ++ queue) : within_limit deps target max_depth p.1 p.2 := by
  have hdistance := h.distance p hp
  refine ⟨fun heq => ?_, hdistance, (within_iff hdepth hdistance.pos).mp (h.within p hp)⟩
  exact h.fresh target rfl (heq ▸ List.mem_map_of_mem hp)

/-- A search that may find more than there is within the limit comes to its end with an empty
    queue, and has found all that is within the limit. -/
theorem discover_all_within (names : List (Uuid × String)) (hdepth : max_depth ≠ 0)
    (hself : target ∉ deps target) (near : Finset Uuid) (hcard : near.card ≤ MAX_ASSETS)
    (hnear : ∀ v d, within_limit deps target max_depth v d → v ∈ near) :
    ∃ done : List (Uuid × Nat),
      discover_upstream_assets (dependency_graph names deps) target max_depth =
        .ok ((done.map (named names)).insertionSort fun a b => b.2.2 ≤ a.2.2) ∧
      (done.map Prod.fst).Nodup ∧
      ∀ v d, (v, d) ∈ done ↔ within_limit deps target max_depth v d := by
  obtain ⟨visited, done, queue, hdiscover, hsearched, -, hend⟩ :=
    discover_searched names hdepth hself
  have hsubset : ((done ++ queue).map Prod.fst).toFinset ⊆ near := by
    intro w hw
    obtain ⟨p, hp, rfl⟩ := List.mem_map.mp (List.mem_toFinset.mp hw)
    exact hnear p.1 p.2 (within_limit_of_seen hdepth hsearched hp)
  have hle : done.length + queue.length ≤ MAX_ASSETS := by
    have hcount := (Finset.card_le_card hsubset).trans hcard
    rw [List.toFinset_card_of_nodup hsearched.nodup] at hcount
    simpa using hcount
  -- so the search has not come to its limit
  have hqueue : queue = [] := by
    rcases hend with hnil | hfull
    · exact hnil
    · exact List.length_eq_zero_iff.mp (by omega)
  subst hqueue
  have hnodup := hsearched.nodup
  rw [List.append_nil] at hnodup
  refine ⟨done, hdiscover, hnodup, fun v d => ⟨fun hmem => ?_, fun hin => ?_⟩⟩
  · exact within_limit_of_seen hdepth hsearched (p := (v, d)) (by simpa using hmem)
  · exact hsearched.found_iff.mpr
      ⟨hin.1, hin.2.1, (within_iff hdepth hin.2.1.pos).mpr hin.2.2⟩

end discovery

/-- **Discovery is exact**: unless the target depends on itself or more assets are within the
    limit than a discovery may find, what is returned are the assets within the limit, each of
    them once, at its distance, the farthest first. -/
theorem discovery_is_exact (names : List (Uuid × String)) (deps : Uuid → List Uuid)
    (target : Uuid) (max_depth : Int) (hdepth : max_depth < 0 ∨ 1 ≤ max_depth)
    (hself : target ∉ deps target)
    (hcard : {v | ∃ d, within_limit deps target max_depth v d}.encard ≤ MAX_ASSETS) :
    ∃ assets, discover_upstream_assets (dependency_graph names deps) target max_depth =
        .ok assets ∧
      (assets.map (·.1)).Nodup ∧ assets.Pairwise (fun a b => b.2.2 ≤ a.2.2) ∧
      (∀ v, v ∈ assets.map (·.1) ↔ ∃ d, within_limit deps target max_depth v d) ∧
      ∀ asset ∈ assets, ∃ d : Nat, asset.2.2 = d ∧
        within_limit deps target max_depth asset.1 d := by
  have hfinite := Set.finite_of_encard_le_coe hcard
  have hcard' : hfinite.toFinset.card ≤ MAX_ASSETS := by
    rw [hfinite.encard_eq_coe_toFinset_card] at hcard
    exact_mod_cast hcard
  obtain ⟨done, hdiscover, hnodup, hdone⟩ := discover_all_within names (by omega) hself
    hfinite.toFinset hcard' fun v d hin => hfinite.mem_toFinset.mpr ⟨d, hin⟩
  have hperm := @discovered_perm names done
  refine ⟨_, hdiscover, hperm.nodup_iff.mpr hnodup, ?_, fun v => ?_, fun asset hasset => ?_⟩
  · exact List.pairwise_insertionSort _ _
  · rw [hperm.mem_iff, List.mem_map]
    constructor
    · rintro ⟨⟨w, d⟩, hp, rfl⟩
      exact ⟨d, (hdone w d).mp hp⟩
    · intro ⟨d, hin⟩
      exact ⟨(v, d), (hdone v d).mpr hin, rfl⟩
  · obtain ⟨⟨w, d⟩, hp, rfl⟩ := List.mem_map.mp ((List.mem_insertionSort _).mp hasset)
    exact ⟨d, rfl, (hdone w d).mp hp⟩

/-- The dependencies of the asset 1 depend on each other, and one of them on the asset 1. -/
def mutual_loop (asset_id : Uuid) : List Uuid :=
  if asset_id = 1 then [2, 3, 2] else if asset_id = 2 then [3, 4] else if asset_id = 3 then [2, 1]
  else []

theorem mutual_loop_is_found :
    ∃ assets, discover_upstream_assets (dependency_graph [] mutual_loop) 1 (-1) = .ok assets ∧
      (assets.map (·.1)).Nodup ∧ assets.Pairwise (fun a b => b.2.2 ≤ a.2.2) ∧
      (∀ v, v ∈ assets.map (·.1) ↔ ∃ d, within_limit mutual_loop 1 (-1) v d) ∧
      ∀ asset ∈ assets, ∃ d : Nat, asset.2.2 = d ∧ within_limit mutual_loop 1 (-1) asset.1 d := by
  refine discovery_is_exact [] mutual_loop 1 (-1) (.inl (by decide)) (by decide) ?_
  -- nothing but the assets 2, 3 and 4 is upstream
  have hmem : ∀ c, ∀ v ∈ mutual_loop c, v ≠ 1 → v ∈ ({2, 3, 4} : Finset Uuid) := by
    intro c v hv hne
    unfold mutual_loop at hv
    split_ifs at hv <;> simp at hv ⊢ <;> tauto
  have hsubset : {v | ∃ d, within_limit mutual_loop 1 (-1) v d} ⊆
      (({2, 3, 4} : Finset Uuid) : Set Uuid) := by
    rintro v ⟨d, hne, hdistance, -⟩
    obtain ⟨n, rfl⟩ := Nat.exists_eq_succ_of_ne_zero hdistance.pos.ne'
    obtain ⟨c, -, hv⟩ := hdistance.steps
    exact hmem c v hv hne
  refine (Set.encard_le_encard hsubset).trans ?_
  rw [Set.encard_coe_eq_coe_finsetCard]
  exact_mod_cast (by decide : ({2, 3, 4} : Finset Uuid).card ≤ MAX_ASSETS)

/-! ### Cycles -/

section cycles
variable {names : List (Uuid × String)} {deps : Uuid → List Uuid} {target : Uuid}
  {max_depth : Int}

/-- The error for a cycle. -/
def cycle_detected (target : Uuid) : StorageError :=
  .ValidationError ("Cycle detected: asset " ++ target.to_string ++ " depends on itself")

theorem discover_refused (hdepth : max_depth ≠ 0) (hself : target ∈ deps target) :
    discover_upstream_assets (dependency_graph names deps) target max_depth =
      .error (cycle_detected target) := by
  unfold discover_upstream_assets
  rw [if_neg hdepth]
  simp only [dependency_graph]
  rw [if_pos (by simpa using hself)]
  rfl

/-- **A cycle is detected exactly if the target depends on itself.** In any other graph the
    discovery returns assets other than the target, each of them once, and no more than the
    limit. -/
theorem cycle_detected_iff (hdepth : max_depth ≠ 0) :
    (discover_upstream_assets (dependency_graph names deps) target max_depth =
        .error (cycle_detected target) ↔ target ∈ deps target) ∧
      (target ∉ deps target → ∃ assets,
        discover_upstream_assets (dependency_graph names deps) target max_depth = .ok assets ∧
        (assets.map (·.1)).Nodup ∧ target ∉ assets.map (·.1) ∧ assets.length ≤ MAX_ASSETS) := by
  by_cases hself : target ∈ deps target
  · exact ⟨iff_of_true (discover_refused hdepth hself) hself, fun hnot => absurd hself hnot⟩
  · obtain ⟨visited, done, queue, hdiscover, hsearched, hle, -⟩ :=
      discover_searched names hdepth hself
    have hnodup := hsearched.nodup
    rw [List.map_append, List.nodup_append] at hnodup
    refine ⟨iff_of_false (by rw [hdiscover]; simp) hself, fun _ => ⟨_, hdiscover, ?_, ?_, ?_⟩⟩
    · exact (discovered_perm done).nodup_iff.mpr hnodup.1
    · rw [(discovered_perm done).mem_iff]
      intro hmem
      refine hsearched.fresh target rfl ?_
      rw [List.map_append]
      exact List.mem_append_left _ hmem
    · rw [List.length_insertionSort, List.length_map]
      exact hle

end cycles

/-- An asset that depends on itself. -/
def self_loop (asset_id : Uuid) : List Uuid := if asset_id = 1 then [2, 1] else []

theorem self_loop_is_detected :
    discover_upstream_assets (dependency_graph [] self_loop) 1 (-1) = .error (cycle_detected 1) :=
  (cycle_detected_iff (by decide)).1.mpr (by decide)

/-- The dependencies of the asset 1 depend on each other. -/
def upstream_loop (asset_id : Uuid) : List Uuid :=
  if asset_id = 1 then [2] else if asset_id = 2 then [3] else if asset_id = 3 then [2] else []

theorem upstream_loop_is_not_detected :
    (discover_upstream_assets (dependency_graph [] upstream_loop) 1 (-1)).toOption.map
        (·.map (·.1)) = some [3, 2] ∧
      Steps upstream_loop 1 1 2 ∧
      Relation.TransGen (fun v u => u ∈ upstream_loop v) 2 2 := by
  refine ⟨by decide +kernel, ⟨1, rfl, by decide⟩, ?_⟩
  exact .tail (.single (show (3 : Uuid) ∈ upstream_loop 2 by decide)) (by decide)

end Servo
