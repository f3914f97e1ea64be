import Mathlib.Data.List.Nodup
import Mathlib.Data.List.Sort

/-! # Breadth-First Search

    A search from a root that puts each node it has not visited into a queue,
    with its depth, and looks at the successors of those at the front of it.
    `Inv` is what every round keeps, whichever data structures the search
    uses: the nodes come in the order of their distance from the root, and
    when the front of the queue is at depth `d`, all nodes nearer than `d`
    have been seen. So the depth of a node is its distance.

    Distances are those along paths of at least one step. The root itself is
    found at the end of a cycle, unless it counts as visited from the start.
    A search may look only at the successors of nodes up to some depth.
-/

universe u

namespace BreadthFirst

variable {α : Type u}

/-! ### Distances -/

/-- There is a path of this length. -/
def Steps (succ : α → List α) : Nat → α → α → Prop
  | 0, a, b => a = b
  | n + 1, a, b => ∃ c, Steps succ n a c ∧ b ∈ succ c

/-- A step before a path. -/
theorem steps_cons {succ : α → List α} {n : Nat} {a b c : α} (hmem : b ∈ succ a)
    (h : Steps succ n b c) : Steps succ (n + 1) a c := by
  induction n generalizing c with
  | zero =>
    obtain rfl : b = c := h
    exact ⟨a, rfl, hmem⟩
  | succ n ih =>
    obtain ⟨w, hw, hlast⟩ := h
    exact ⟨w, ih hw, hlast⟩

/-- The shortest path of at least one step has the length `d`. -/
structure Distance (succ : α → List α) (root v : α) (d : Nat) : Prop where
  pos : 0 < d
  steps : Steps succ d root v
  least : ∀ n, 0 < n → Steps succ n root v → d ≤ n

section distance
variable {succ : α → List α} {root v : α} {d d' : Nat}

theorem Distance.unique (h : Distance succ root v d) (h' : Distance succ root v d') : d = d' :=
  le_antisymm (h.least d' h'.pos h'.steps) (h'.least d h.pos h.steps)

theorem Distance.of_mem {v : α} (h : v ∈ succ root) : Distance succ root v 1 where
  pos := Nat.one_pos
  steps := ⟨root, rfl, h⟩
  least := fun _ hn _ => hn

/-- A node with a path to it has a distance. -/
theorem exists_distance {n : Nat} (hn : 0 < n) (h : Steps succ n root v) :
    ∃ d, Distance succ root v d ∧ d ≤ n := by
  induction n using Nat.strong_induction_on with
  | _ n ih =>
    by_cases hshorter : ∃ m, 0 < m ∧ m < n ∧ Steps succ m root v
    · obtain ⟨m, hm, hlt, hsteps⟩ := hshorter
      obtain ⟨d, hd, hle⟩ := ih m hlt hm hsteps
      exact ⟨d, hd, hle.trans hlt.le⟩
    · refine ⟨n, ⟨hn, h, fun m hm hsteps => ?_⟩, le_rfl⟩
      by_contra hlt
      exact hshorter ⟨m, hm, by omega, hsteps⟩

end distance

/-! ### The nodes that have not been visited -/

section discover
variable [DecidableEq α]

/-- Those of the nodes that have not been visited, each once, and what has been visited then. -/
def discover (visited : List α) : List α → List α × List α
  | [] => ([], visited)
  | v :: vs =>
    if v ∈ visited then discover visited vs
    else (v :: (discover (v :: visited) vs).1, (discover (v :: visited) vs).2)

theorem mem_discover {visited vs : List α} {v : α} :
    v ∈ (discover visited vs).1 ↔ v ∈ vs ∧ v ∉ visited := by
  induction vs generalizing visited with
  | nil => simp [discover]
  | cons w vs ih =>
    by_cases hw : w ∈ visited
    · have hself : v = w → v ∈ visited := fun heq => heq ▸ hw
      rw [discover, if_pos hw, ih, List.mem_cons]
      tauto
    · rw [discover, if_neg hw, List.mem_cons, ih, List.mem_cons, List.mem_cons]
      by_cases heq : v = w
      · subst heq
        simp [hw]
      · simp [heq]

theorem nodup_discover (visited vs : List α) : (discover visited vs).1.Nodup := by
  induction vs generalizing visited with
  | nil => exact List.nodup_nil
  | cons w vs ih =>
    by_cases hw : w ∈ visited
    · rw [discover, if_pos hw]
      exact ih visited
    · rw [discover, if_neg hw, List.nodup_cons, mem_discover]
      refine ⟨?_, ih (w :: visited)⟩
      intro h
      exact h.2 List.mem_cons_self

theorem mem_discover_visited {visited vs : List α} {v : α} :
    v ∈ (discover visited vs).2 ↔ v ∈ visited ∨ v ∈ vs := by
  induction vs generalizing visited with
  | nil => simp [discover]
  | cons w vs ih =>
    by_cases hw : w ∈ visited
    · have hself : v = w → v ∈ visited := fun heq => heq ▸ hw
      rw [discover, if_pos hw, ih, List.mem_cons]
      tauto
    · rw [discover, if_neg hw, ih, List.mem_cons, List.mem_cons]
      tauto

end discover

/-! ### The invariant -/

/-- What holds before each round: `done` are the nodes that have been looked at, `expand` is where
    the search looks at successors, and `barred` are those visited from the start. -/
structure Inv (succ : α → List α) (root : α) (expand : Nat → Prop) (barred visited : α → Prop)
    (done queue : List (α × Nat)) : Prop where
  nodup : ((done ++ queue).map Prod.fst).Nodup
  visited_iff : ∀ v, visited v ↔ barred v ∨ v ∈ (done ++ queue).map Prod.fst
  barred_root : ∀ v, barred v → v = root
  fresh : ∀ v, barred v → v ∉ (done ++ queue).map Prod.fst
  /-- The depths grow. -/
  sorted : (done ++ queue).Pairwise fun a b => a.2 ≤ b.2
  /-- In the queue by at most one. -/
  near : ∀ a ∈ queue, ∀ b ∈ queue, b.2 ≤ a.2 + 1
  distance : ∀ p ∈ done ++ queue, Distance succ root p.1 p.2
  within : ∀ p ∈ done ++ queue, ∀ j, 0 < j → j < p.2 → expand j
  seeded : ∀ v ∈ succ root, visited v
  closed : ∀ p ∈ done, expand p.2 → ∀ v ∈ succ p.1, visited v

section search
variable {succ : α → List α} {root : α} {expand : Nat → Prop} {barred visited visited' : α → Prop}
  {done queue : List (α × Nat)} {new : List α}

/-- The nodes of a round, each at the same depth. -/
theorem map_fst_pair (new : List α) (d : Nat) :
    (new.map fun v => (v, d)).map Prod.fst = new := by
  rw [List.map_map]
  exact List.map_id _

/-- The search starts with the successors of the root. -/
theorem Inv.start (hbarred : ∀ v, barred v → v = root) (hnodup : new.Nodup)
    (hnew : ∀ v, v ∈ new ↔ v ∈ succ root ∧ ¬ barred v)
    (hvisited : ∀ v, visited v ↔ barred v ∨ v ∈ succ root) :
    Inv succ root expand barred visited [] (new.map fun v => (v, 1)) where
  nodup := by rwa [List.nil_append, map_fst_pair]
  visited_iff := by
    intro v
    rw [List.nil_append, map_fst_pair, hvisited, hnew]
    by_cases hv : barred v <;> simp [hv]
  barred_root := hbarred
  fresh := by
    intro v hv
    rw [List.nil_append, map_fst_pair, hnew]
    exact fun h => h.2 hv
  sorted := by
    rw [List.nil_append, List.pairwise_map]
    exact List.pairwise_of_forall fun _ _ => le_rfl
  near := by
    intro a ha b hb
    obtain ⟨v, -, rfl⟩ := List.mem_map.mp ha
    obtain ⟨w, -, rfl⟩ := List.mem_map.mp hb
    exact Nat.le_succ 1
  distance := by
    intro p hp
    obtain ⟨v, hv, rfl⟩ := List.mem_map.mp hp
    exact .of_mem ((hnew v).mp hv).1
  within := by
    intro p hp j hpos hlt
    obtain ⟨v, -, rfl⟩ := List.mem_map.mp hp
    have hlt' : j < 1 := hlt
    omega
  seeded := fun v hv => (hvisited v).mpr (.inr hv)
  closed := fun p hp => absurd hp List.not_mem_nil

/-- All nodes that are not farther away than what is in the queue have been visited. -/
theorem Inv.reached (h : Inv succ root expand barred visited done queue) {k : Nat} (hk : 0 < k)
    (hqueue : ∀ p ∈ queue, k ≤ p.2) (hexpand : ∀ j, 0 < j → j < k → expand j) {v : α}
    (hsteps : Steps succ k root v) : visited v := by
  induction k generalizing v with
  | zero => exact absurd hk (Nat.lt_irrefl 0)
  | succ k ih =>
    obtain ⟨w, hw, hv⟩ := hsteps
    by_cases hzero : k = 0
    · subst hzero
      obtain rfl : root = w := hw
      exact h.seeded v hv
    · have hvisited : visited w := by
        refine ih (by omega) (fun p hp => ?_) (fun j hpos hlt => hexpand j hpos (by omega)) hw
        have := hqueue p hp
        omega
      rcases (h.visited_iff w).mp hvisited with hbarred | hmem
      · rw [h.barred_root w hbarred] at hv
        exact h.seeded v hv
      · -- `w` is nearer than what is in the queue, so it has been looked at
        obtain ⟨p, hp, rfl⟩ := List.mem_map.mp hmem
        have hdistance := h.distance p hp
        have hle : p.2 ≤ k := hdistance.least k (by omega) hw
        rcases List.mem_append.mp hp with hdone | hqueued
        · exact h.closed p hdone (hexpand p.2 hdistance.pos (by omega)) v hv
        · have := hqueue p hqueued
          omega

/-- The front of the queue is looked at; its successors are not. -/
theorem Inv.pass {node : α × Nat} (h : Inv succ root expand barred visited done (node :: queue))
    (hexpand : ¬ expand node.2) :
    Inv succ root expand barred visited (done ++ [node]) queue := by
  have heq : done ++ [node] ++ queue = done ++ node :: queue := by simp
  refine ⟨heq ▸ h.nodup, heq ▸ h.visited_iff, h.barred_root, heq ▸ h.fresh, heq ▸ h.sorted, ?_,
    heq ▸ h.distance, heq ▸ h.within, h.seeded, ?_⟩
  · exact fun a ha b hb => h.near a (List.mem_cons_of_mem _ ha) b (List.mem_cons_of_mem _ hb)
  · intro p hp hexp
    rcases List.mem_append.mp hp with hp | hp
    · exact h.closed p hp hexp
    · rw [List.mem_singleton.mp hp] at hexp
      exact absurd hexp hexpand

/-- A successor of the front that has not been visited is one step farther away. -/
theorem Inv.distance_new {node : α × Nat}
    (h : Inv succ root expand barred visited done (node :: queue)) {v : α} (hv : v ∈ succ node.1)
    (hnot : ¬ visited v) : Distance succ root v (node.2 + 1) := by
  have hmem : node ∈ done ++ node :: queue := by simp
  refine ⟨Nat.succ_pos _, ⟨node.1, (h.distance node hmem).steps, hv⟩, fun n hn hsteps => ?_⟩
  by_contra hlt
  refine hnot (h.reached hn (fun p hp => ?_) (fun j hpos hj => ?_) hsteps)
  · -- the queue is sorted
    have hsorted := (List.pairwise_append.mp h.sorted).2.1
    rcases List.mem_cons.mp hp with rfl | hp
    · omega
    · have := (List.pairwise_cons.mp hsorted).1 p hp
      omega
  · exact h.within node hmem j hpos (by omega)

/-- The front of the queue is looked at, and those of its successors that have not been visited
    are put into the queue. -/
theorem Inv.look {node : α × Nat} (h : Inv succ root expand barred visited done (node :: queue))
    (hexpand : expand node.2) (hnodup : new.Nodup)
    (hnew : ∀ v, v ∈ new ↔ v ∈ succ node.1 ∧ ¬ visited v)
    (hvisited : ∀ v, visited' v ↔ visited v ∨ v ∈ succ node.1) :
    Inv succ root expand barred visited' (done ++ [node])
      (queue ++ new.map fun v => (v, node.2 + 1)) := by
  have hmem : node ∈ done ++ node :: queue := by simp
  have heq : done ++ [node] ++ (queue ++ new.map fun v => (v, node.2 + 1)) =
      (done ++ node :: queue) ++ new.map fun v => (v, node.2 + 1) := by simp
  have hmap : (done ++ [node] ++ (queue ++ new.map fun v => (v, node.2 + 1))).map Prod.fst =
      (done ++ node :: queue).map Prod.fst ++ new := by
    rw [heq, List.map_append, map_fst_pair]
  -- the depths so far are those of the front, or one more
  have hsorted := List.pairwise_append.mp h.sorted
  have hle : ∀ p ∈ done ++ node :: queue, p.2 ≤ node.2 + 1 := by
    intro p hp
    rcases List.mem_append.mp hp with hp | hp
    · have := hsorted.2.2 p hp node List.mem_cons_self
      omega
    · exact h.near node List.mem_cons_self p hp
  have hge : ∀ p ∈ queue, node.2 ≤ p.2 := (List.pairwise_cons.mp hsorted.2.1).1
  have hold : ∀ p ∈ done ++ node :: queue, visited p.1 := fun p hp =>
    (h.visited_iff p.1).mpr (.inr (List.mem_map_of_mem hp))
  constructor
  case nodup =>
    rw [hmap, List.nodup_append]
    refine ⟨h.nodup, hnodup, ?_⟩
    rintro v hv _ hv' rfl
    exact ((hnew v).mp hv').2 ((h.visited_iff v).mpr (.inr hv))
  case visited_iff =>
    intro v
    rw [hmap, List.mem_append, hvisited, hnew, h.visited_iff]
    constructor
    · rintro ((hbarred | hv) | hv)
      · exact .inl hbarred
      · exact .inr (.inl hv)
      · by_cases hseen : barred v ∨ v ∈ (done ++ node :: queue).map Prod.fst
        · exact hseen.imp_right .inl
        · exact .inr (.inr ⟨hv, hseen⟩)
    · rintro (hbarred | hv | ⟨hv, -⟩)
      · exact .inl (.inl hbarred)
      · exact .inl (.inr hv)
      · exact .inr hv
  case barred_root => exact h.barred_root
  case fresh =>
    intro v hv
    rw [hmap, List.mem_append, hnew]
    rintro (hmem' | ⟨-, hnot⟩)
    · exact h.fresh v hv hmem'
    · exact hnot ((h.visited_iff v).mpr (.inl hv))
  case sorted =>
    rw [heq, List.pairwise_append]
    refine ⟨h.sorted, ?_, ?_⟩
    · rw [List.pairwise_map]
      exact List.pairwise_of_forall fun _ _ => le_rfl
    · intro a ha b hb
      obtain ⟨v, -, rfl⟩ := List.mem_map.mp hb
      exact hle a ha
  case near =>
    have hlow : ∀ p ∈ queue ++ new.map fun v => (v, node.2 + 1), node.2 ≤ p.2 := by
      intro p hp
      rcases List.mem_append.mp hp with hp | hp
      · exact hge p hp
      · obtain ⟨v, -, rfl⟩ := List.mem_map.mp hp
        exact Nat.le_succ _
    have hhigh : ∀ p ∈ queue ++ new.map fun v => (v, node.2 + 1), p.2 ≤ node.2 + 1 := by
      intro p hp
      rcases List.mem_append.mp hp with hp | hp
      · exact hle p (by simp [hp])
      · obtain ⟨v, -, rfl⟩ := List.mem_map.mp hp
        exact le_rfl
    intro a ha b hb
    have := hlow a ha
    have := hhigh b hb
    omega
  case distance =>
    intro p hp
    rw [heq] at hp
    rcases List.mem_append.mp hp with hp | hp
    · exact h.distance p hp
    · obtain ⟨v, hv, rfl⟩ := List.mem_map.mp hp
      exact h.distance_new ((hnew v).mp hv).1 ((hnew v).mp hv).2
  case within =>
    intro p hp j hpos hj
    rw [heq] at hp
    rcases List.mem_append.mp hp with hp | hp
    · exact h.within p hp j hpos hj
    · obtain ⟨v, -, rfl⟩ := List.mem_map.mp hp
      have hj' : j < node.2 + 1 := hj
      by_cases hlast : j = node.2
      · exact hlast ▸ hexpand
      · exact h.within node hmem j hpos (by omega)
  case seeded => exact fun v hv => (hvisited v).mpr (.inl (h.seeded v hv))
  case closed =>
    intro p hp hexp v hv
    rcases List.mem_append.mp hp with hp | hp
    · exact (hvisited v).mpr (.inl (h.closed p hp hexp v hv))
    · rw [List.mem_singleton.mp hp] at hv
      exact (hvisited v).mpr (.inr hv)

/-! ### The result -/

/-- What has been found is at its distance, and within the limit. -/
theorem Inv.found (h : Inv succ root expand barred visited done queue) {v : α} {d : Nat}
    (hv : (v, d) ∈ done) :
    ¬ barred v ∧ Distance succ root v d ∧ ∀ j, 0 < j → j < d → expand j := by
  have hmem : (v, d) ∈ done ++ queue := List.mem_append_left _ hv
  refine ⟨fun hbarred => ?_, h.distance _ hmem, h.within _ hmem⟩
  exact h.fresh v hbarred (List.mem_map.mpr ⟨(v, d), hmem, rfl⟩)

/-- When the queue is empty, all that is within the limit has been found. -/
theorem Inv.found_iff (h : Inv succ root expand barred visited done []) {v : α} {d : Nat} :
    (v, d) ∈ done ↔
      ¬ barred v ∧ Distance succ root v d ∧ ∀ j, 0 < j → j < d → expand j := by
  constructor
  · exact h.found
  · intro ⟨hbarred, hdistance, hwithin⟩
    have hvisited := h.reached hdistance.pos (by simp) hwithin hdistance.steps
    rcases (h.visited_iff v).mp hvisited with hbarred' | hmem
    · exact absurd hbarred' hbarred
    · obtain ⟨p, hp, rfl⟩ := List.mem_map.mp hmem
      have heq : p.2 = d := (h.distance p hp).unique hdistance
      rw [List.append_nil] at hp
      exact heq ▸ hp

end search

end BreadthFirst
