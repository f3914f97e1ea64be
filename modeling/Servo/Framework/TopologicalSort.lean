import Mathlib.Data.Finite.Defs
import Mathlib.Data.Fintype.Card
import Mathlib.Data.List.Dedup
import Mathlib.Data.Set.Finite.List
import Mathlib.Logic.Function.Basic
import Mathlib.Logic.Relation
import Mathlib.Order.WellFounded

/-! # Topological Sorting by Counting Predecessors

    Kahn's algorithm on a list of edges, in which an edge may occur several
    times. A node is ready when all its edges come from nodes that have been
    emitted; emitting a node takes away one edge of each of its children for
    each edge between them.

    `Inv` is what each round keeps. At the end nothing is ready, so that each
    node that is left has an edge from a node that is left. On a finite set
    this is possible exactly if there is a cycle.
-/

universe u

namespace TopologicalSort

variable {α : Type u} [DecidableEq α]

/-- The children of a node, each as often as there are edges to it. -/
def children (edges : List (α × α)) (node : α) : List α :=
  (edges.filter (·.1 = node)).map (·.2)

/-- The number of edges to a node. -/
def degree (edges : List (α × α)) (node : α) : Nat := edges.countP (·.2 = node)

/-- One edge to `child` is taken away. -/
def release (counts : (α → Nat) × List α) (child : α) : (α → Nat) × List α :=
  (Function.update counts.1 child (counts.1 child - 1),
    if counts.1 child - 1 = 0 then counts.2 ++ [child] else counts.2)

/-- The loop: emit the first node that is ready. -/
def drain (graph : α → List α) : (fuel : Nat) → (α → Nat) → List α → List α → List α
  | 0, _, _, ordered => ordered
  | _ + 1, _, [], ordered => ordered
  | fuel + 1, indegree, node :: ready, ordered =>
    let counts := (graph node).foldl release (indegree, ready)
    drain graph fuel counts.1 counts.2 (ordered ++ [node])

/-- There is an edge. -/
def Edge (edges : List (α × α)) (u v : α) : Prop := (u, v) ∈ edges

/-- There is a cycle. -/
def Cyclic (edges : List (α × α)) : Prop := ∃ v, Relation.TransGen (Edge edges) v v

/-- Every node of the list comes after all nodes that have an edge to it. -/
def Sorted (edges : List (α × α)) (order : List α) : Prop :=
  ∀ front v back, order = front ++ v :: back → ∀ u, (u, v) ∈ edges → u ∈ front

/-! ### Sorted lists -/

section sorted
variable {edges : List (α × α)} {order : List α}

omit [DecidableEq α] in
theorem Sorted.nil : Sorted edges [] := by
  intro front v back h
  simp at h

omit [DecidableEq α] in
/-- A node whose predecessors are there can be added. -/
theorem Sorted.concat {node : α} (h : Sorted edges order)
    (hnode : ∀ u, (u, node) ∈ edges → u ∈ order) : Sorted edges (order ++ [node]) := by
  intro front v back heq u hu
  rcases List.eq_nil_or_concat back with rfl | ⟨back', last, rfl⟩
  · obtain ⟨rfl, hv⟩ := List.append_inj' heq rfl
    have hv' : node = v := by simpa using hv
    exact hnode u (hv' ▸ hu)
  · have heq' : order ++ [node] = (front ++ v :: back') ++ [last] := by simpa using heq
    obtain ⟨rfl, -⟩ := List.append_inj' heq' rfl
    exact h front v back' rfl u hu

/-- The position grows along an edge. -/
theorem Sorted.idxOf_lt {u v : α} (h : Sorted edges order) (huv : (u, v) ∈ edges)
    (hv : v ∈ order) : u ∈ order ∧ order.idxOf u < order.idxOf v := by
  obtain ⟨front, back, heq, hfront⟩ := List.eq_append_cons_of_mem hv
  have hu : u ∈ front := h front v back heq u huv
  have hidx_u : order.idxOf u = front.idxOf u := by
    rw [heq, List.idxOf_append_of_mem hu]
  have hidx_v : order.idxOf v = front.length := by
    rw [heq, List.idxOf_append_of_notMem hfront]
    simp
  refine ⟨by simp [heq, hu], ?_⟩
  rw [hidx_u, hidx_v]
  exact List.idxOf_lt_length_of_mem hu

/-- And along a path. -/
theorem Sorted.idxOf_lt_of_path {u v : α} (h : Sorted edges order)
    (huv : Relation.TransGen (Edge edges) u v) (hv : v ∈ order) :
    u ∈ order ∧ order.idxOf u < order.idxOf v := by
  induction huv using Relation.TransGen.head_induction_on with
  | single hedge => exact h.idxOf_lt hedge hv
  | head hedge _ ih =>
    obtain ⟨hmid, hlt⟩ := ih
    obtain ⟨hu, hlt'⟩ := h.idxOf_lt hedge hmid
    exact ⟨hu, hlt'.trans hlt⟩

/-- So no node of a cycle is in it. -/
theorem Sorted.not_mem_of_cycle {v : α} (h : Sorted edges order)
    (hcycle : Relation.TransGen (Edge edges) v v) : v ∉ order := by
  intro hv
  exact absurd (h.idxOf_lt_of_path hcycle hv).2 (Nat.lt_irrefl _)

end sorted

/-! ### One round -/

section round

/-- What releasing a list of children does to the counts, and which nodes it makes ready. -/
theorem foldl_release (cs : List α) (indegree : α → Nat) (ready : List α)
    (hcount : ∀ v, cs.count v ≤ indegree v) :
    ∃ new, cs.foldl release (indegree, ready) =
        (fun v => indegree v - cs.count v, ready ++ new) ∧
      new.Nodup ∧ ∀ v, v ∈ new ↔ v ∈ cs ∧ indegree v = cs.count v := by
  induction cs generalizing indegree ready with
  | nil => exact ⟨[], by simp⟩
  | cons c cs ih =>
    have hc : cs.count c + 1 ≤ indegree c := by simpa using hcount c
    have hcount' : ∀ v, cs.count v ≤ Function.update indegree c (indegree c - 1) v := by
      intro v
      by_cases hv : v = c
      · subst hv
        rw [Function.update_self]
        omega
      · rw [Function.update_of_ne hv]
        have hle := hcount v
        rw [List.count_cons_of_ne (Ne.symm hv)] at hle
        exact hle
    obtain ⟨new, hfold, hnodup, hnew⟩ := ih _
      (if indegree c - 1 = 0 then ready ++ [c] else ready) hcount'
    have hdegree : (fun v => Function.update indegree c (indegree c - 1) v - cs.count v) =
        fun v => indegree v - (c :: cs).count v := by
      funext v
      by_cases hv : v = c
      · subst hv
        rw [Function.update_self, List.count_cons_self]
        omega
      · rw [Function.update_of_ne hv, List.count_cons_of_ne (Ne.symm hv)]
    rw [List.foldl_cons, release, hfold, hdegree]
    by_cases hlast : indegree c - 1 = 0
    · -- the last edge to `c`: it is ready, and does not come again
      have hnone : cs.count c = 0 := by omega
      have hnotin : c ∉ cs := List.count_eq_zero.mp hnone
      have hfresh : c ∉ new := fun h => hnotin ((hnew c).mp h).1
      refine ⟨c :: new, by rw [if_pos hlast]; simp, List.nodup_cons.mpr ⟨hfresh, hnodup⟩, ?_⟩
      intro v
      by_cases hv : v = c
      · subst hv
        have hone : indegree v = 1 := by omega
        simp [hone, hnone]
      · rw [List.mem_cons, List.mem_cons, hnew, Function.update_of_ne hv,
          List.count_cons_of_ne (Ne.symm hv)]
        simp [hv]
    · refine ⟨new, by rw [if_neg hlast], hnodup, ?_⟩
      intro v
      rw [hnew]
      by_cases hv : v = c
      · subst hv
        rw [Function.update_self, List.count_cons_self]
        constructor
        · intro h
          exact ⟨List.mem_cons_self, by omega⟩
        · intro h
          have hpos : 0 < cs.count v := by omega
          exact ⟨List.count_pos_iff.mp hpos, by omega⟩
      · rw [Function.update_of_ne hv, List.count_cons_of_ne (Ne.symm hv), List.mem_cons]
        simp [hv]

theorem count_children (edges : List (α × α)) (node v : α) :
    (children edges node).count v = edges.countP (fun e => e.1 = node ∧ e.2 = v) := by
  unfold children
  rw [List.count, List.countP_map, List.countP_filter]
  refine List.countP_congr fun e _ => ?_
  simp [and_comm]

theorem mem_children {edges : List (α × α)} {node v : α} :
    v ∈ children edges node ↔ (node, v) ∈ edges := by
  unfold children
  simp

/-- The edges to `v` from nodes that have not been emitted. -/
def remaining (edges : List (α × α)) (ordered : List α) (v : α) : Nat :=
  edges.countP fun e => e.2 = v ∧ e.1 ∉ ordered

theorem remaining_nil (edges : List (α × α)) (v : α) : remaining edges [] v = degree edges v := by
  simp [remaining, degree]

/-- Emitting a node takes away its edges. -/
theorem remaining_concat (edges : List (α × α)) {ordered : List α} {node : α}
    (hnode : node ∉ ordered) (v : α) :
    remaining edges ordered v =
      remaining edges (ordered ++ [node]) v + (children edges node).count v := by
  rw [count_children]
  unfold remaining
  induction edges with
  | nil => rfl
  | cons e edges ih =>
    simp only [List.countP_cons, ih]
    by_cases hv : e.2 = v
    · by_cases hn : e.1 = node
      · have hnotin : e.1 ∉ ordered := hn ▸ hnode
        simp [hv, hn, hnode]
        omega
      · by_cases ho : e.1 ∈ ordered
        · simp [hv, hn, ho]
        · simp [hv, hn, ho]
          omega
    · simp [hv]

theorem remaining_eq_zero_iff {edges : List (α × α)} {ordered : List α} {v : α} :
    remaining edges ordered v = 0 ↔ ∀ u, (u, v) ∈ edges → u ∈ ordered := by
  unfold remaining
  rw [List.countP_eq_zero]
  constructor
  · intro h u hu
    by_contra hnot
    exact h (u, v) hu (by simp [hnot])
  · intro h e he hcond
    have hcond' : e.2 = v ∧ e.1 ∉ ordered := by simpa using hcond
    exact hcond'.2 (h e.1 (hcond'.1 ▸ he))

end round

/-! ### The loop -/

/-- What holds before each round. -/
structure Inv (edges : List (α × α)) (nodes : List α) (indegree : α → Nat)
    (ready ordered : List α) : Prop where
  /-- No node comes twice. -/
  nodup : (ordered ++ ready).Nodup
  /-- The counts are those of the edges that have not been taken away. -/
  counts : ∀ v, indegree v = remaining edges ordered v
  /-- A node becomes ready as soon as its count is zero. -/
  released : ∀ v, v ∈ ordered ++ ready ↔ v ∈ nodes ∧ indegree v = 0
  sorted : Sorted edges ordered

section loop
variable {edges : List (α × α)} {nodes : List α}

/-- Before the first round the nodes without edges are ready. -/
theorem Inv.start {ready : List α} (hnodup : ready.Nodup)
    (hready : ∀ v, v ∈ ready ↔ v ∈ nodes ∧ degree edges v = 0) :
    Inv edges nodes (degree edges) ready [] where
  nodup := hnodup
  counts := fun v => (remaining_nil edges v).symm
  released := hready
  sorted := .nil

variable {indegree : α → Nat} {ready ordered : List α}

/-- One round. -/
theorem Inv.emit {node : α} (h : Inv edges nodes indegree (node :: ready) ordered)
    (hnodes : ∀ e ∈ edges, e.2 ∈ nodes) :
    Inv edges nodes ((children edges node).foldl release (indegree, ready)).1
      ((children edges node).foldl release (indegree, ready)).2 (ordered ++ [node]) := by
  have hnotin : node ∉ ordered := by
    have hnodup := h.nodup
    rw [List.nodup_append] at hnodup
    exact fun hmem => hnodup.2.2 node hmem node List.mem_cons_self rfl
  have hcount : ∀ v, (children edges node).count v ≤ indegree v := by
    intro v
    rw [h.counts v, remaining_concat edges hnotin v]
    omega
  obtain ⟨new, hfold, hnew_nodup, hnew⟩ := foldl_release _ indegree ready hcount
  have hold : ∀ v, v ∈ ordered ++ node :: ready ↔ v ∈ (ordered ++ [node]) ++ ready := by
    intro v
    simp
  have hcounts : ∀ v, indegree v - (children edges node).count v =
      remaining edges (ordered ++ [node]) v := by
    intro v
    rw [h.counts v, remaining_concat edges hnotin v]
    omega
  rw [hfold]
  refine ⟨?_, hcounts, ?_, ?_⟩
  -- what is released now has not been ready before
  · show (ordered ++ [node] ++ (ready ++ new)).Nodup
    have hsplit : ordered ++ [node] ++ (ready ++ new) = (ordered ++ node :: ready) ++ new := by
      simp
    rw [hsplit, List.nodup_append]
    refine ⟨h.nodup, hnew_nodup, ?_⟩
    rintro v hv _ hv' rfl
    -- a child that is released now had edges, and a node that was ready had none
    have hzero : indegree v = 0 := ((h.released v).mp hv).2
    obtain ⟨hchild, heq⟩ := (hnew v).mp hv'
    have hpos := List.count_pos_iff.mpr hchild
    omega
  · intro v
    show v ∈ ordered ++ [node] ++ (ready ++ new) ↔ v ∈ nodes ∧
      indegree v - (children edges node).count v = 0
    rw [← List.append_assoc, List.mem_append, ← hold, h.released, hnew]
    have hle := hcount v
    constructor
    · rintro (⟨hv, hzero⟩ | ⟨hchild, heq⟩)
      · exact ⟨hv, by omega⟩
      · exact ⟨hnodes _ (mem_children.mp hchild), by omega⟩
    · intro ⟨hv, hzero⟩
      by_cases hindegree : indegree v = 0
      · exact .inl ⟨hv, hindegree⟩
      · have hpos : 0 < (children edges node).count v := by omega
        exact .inr ⟨List.count_pos_iff.mp hpos, by omega⟩
  -- the node was ready: all its edges come from nodes that have been emitted
  · refine h.sorted.concat fun u hu => ?_
    have hzero : indegree node = 0 := ((h.released node).mp (by simp)).2
    rw [h.counts node] at hzero
    exact remaining_eq_zero_iff.mp hzero u hu

theorem Inv.length_le (h : Inv edges nodes indegree ready ordered) :
    ordered.length + ready.length ≤ nodes.length := by
  have hsub : ordered ++ ready ⊆ nodes := fun v hv => ((h.released v).mp hv).1
  have hle := (List.subperm_of_subset h.nodup hsub).length_le
  rwa [List.length_append] at hle

/-- With a round for each node the loop comes to its end. -/
theorem drain_inv {fuel : Nat} (h : Inv edges nodes indegree ready ordered)
    (hnodes : ∀ e ∈ edges, e.2 ∈ nodes) (hfuel : nodes.length ≤ ordered.length + fuel) :
    ∃ indegree', Inv edges nodes indegree' []
      (drain (children edges) fuel indegree ready ordered) := by
  induction fuel generalizing indegree ready ordered with
  | zero =>
    have hle := h.length_le
    have hready : ready = [] := List.eq_nil_of_length_eq_zero (by omega)
    subst hready
    exact ⟨indegree, h⟩
  | succ fuel ih =>
    cases ready with
    | nil => exact ⟨indegree, h⟩
    | cons node ready =>
      have hlength : (ordered ++ [node]).length = ordered.length + 1 := by simp
      exact ih (h.emit hnodes) (by omega)

end loop

/-! ### The result -/

section result
variable {edges : List (α × α)} {nodes order : List α} {indegree : α → Nat}

theorem Inv.subset (h : Inv edges nodes indegree [] order) : order ⊆ nodes := by
  intro v hv
  exact ((h.released v).mp (by simpa using hv)).1

theorem Inv.order_nodup (h : Inv edges nodes indegree [] order) : order.Nodup := by
  simpa using h.nodup

/-- A node that is left has an edge from a node that is left. -/
theorem Inv.left_over (h : Inv edges nodes indegree [] order) {v : α} (hv : v ∈ nodes)
    (hleft : v ∉ order) : ∃ u, (u, v) ∈ edges ∧ u ∉ order := by
  have hcount : indegree v ≠ 0 := by
    intro hzero
    exact hleft (by simpa using (h.released v).mpr ⟨hv, hzero⟩)
  by_contra hnone
  refine hcount ?_
  rw [h.counts v, remaining_eq_zero_iff]
  intro u hu
  by_contra hnot
  exact hnone ⟨u, hu, hnot⟩

/-- There is a path from one node to the other. -/
def Before (edges : List (α × α)) (nodes : List α) (u v : {x // x ∈ nodes}) : Prop :=
  Relation.TransGen (Edge edges) u.1 v.1

omit [DecidableEq α] in
theorem before_wellFounded (nodes : List α) (hacyclic : ¬ Cyclic edges) :
    WellFounded (Before edges nodes) := by
  have htrans : IsTrans _ (Before edges nodes) := ⟨fun _ _ _ huv hvw => huv.trans hvw⟩
  have hirrefl : Std.Irrefl (Before edges nodes) := ⟨fun v hv => hacyclic ⟨v.1, hv⟩⟩
  have hfinite : Finite {x // x ∈ nodes} := (List.finite_toSet nodes).to_subtype
  exact Finite.wellFounded_of_trans_of_irrefl (Before edges nodes)

/-- Without a cycle no node is left. -/
theorem Inv.complete (h : Inv edges nodes indegree [] order)
    (hnodes : ∀ e ∈ edges, e.1 ∈ nodes) (hacyclic : ¬ Cyclic edges) : nodes ⊆ order := by
  intro v hv
  have hall : ∀ x : {x // x ∈ nodes}, x.1 ∈ order := by
    intro x
    -- a node that is left has one before it that is left
    induction x using (before_wellFounded nodes hacyclic).induction with
    | _ x ih =>
      by_contra hleft
      obtain ⟨u, hu, hnot⟩ := h.left_over x.2 hleft
      exact hnot (ih ⟨u, hnodes _ hu⟩ (Relation.TransGen.single hu))
  exact hall ⟨v, hv⟩

/-- The loop emits all nodes exactly if there is no cycle. -/
theorem Inv.complete_iff (h : Inv edges nodes indegree [] order)
    (hsources : ∀ e ∈ edges, e.1 ∈ nodes) (htargets : ∀ e ∈ edges, e.2 ∈ nodes) :
    nodes ⊆ order ↔ ¬ Cyclic edges := by
  constructor
  · intro hall ⟨v, hcycle⟩
    have hv : v ∈ nodes := by
      obtain ⟨u, -, hu⟩ := Relation.TransGen.tail'_iff.mp hcycle
      exact htargets _ hu
    exact h.sorted.not_mem_of_cycle hcycle (hall hv)
  · exact h.complete hsources

/-- The nodes have a sorted order exactly if there is no cycle. -/
theorem exists_sorted_iff (hnodes : nodes.Nodup) (hsources : ∀ e ∈ edges, e.1 ∈ nodes)
    (htargets : ∀ e ∈ edges, e.2 ∈ nodes) :
    (∃ order : List α, order.Perm nodes ∧ Sorted edges order) ↔ ¬ Cyclic edges := by
  constructor
  · intro h hcycle
    obtain ⟨order, hperm, hsorted⟩ := h
    obtain ⟨v, hv⟩ := hcycle
    obtain ⟨u, -, hu⟩ := Relation.TransGen.tail'_iff.mp hv
    exact hsorted.not_mem_of_cycle hv (hperm.mem_iff.mpr (htargets _ hu))
  · intro hacyclic
    have hready : ∀ v, v ∈ nodes.filter (degree edges · = 0) ↔ v ∈ nodes ∧ degree edges v = 0 := by
      intro v
      rw [List.mem_filter, decide_eq_true_eq]
    obtain ⟨indegree, hinv⟩ := drain_inv (Inv.start (hnodes.filter _) hready) htargets
      (Nat.le_add_left nodes.length _)
    refine ⟨_, ?_, hinv.sorted⟩
    exact (List.perm_ext_iff_of_nodup hinv.order_nodup hnodes).mpr fun v =>
      ⟨fun hv => hinv.subset hv, fun hv => hinv.complete hsources hacyclic hv⟩

omit [DecidableEq α] in
/-- If no edge leads from a node to itself, a cycle goes through two different nodes. -/
theorem cyclic_iff_of_irreflexive (hself : ∀ v, (v, v) ∉ edges) :
    Cyclic edges ↔ ∃ u v, u ≠ v ∧ Relation.TransGen (Edge edges) u v ∧
      Relation.TransGen (Edge edges) v u := by
  constructor
  · intro h
    obtain ⟨u, hu⟩ := h
    obtain ⟨v, hfirst, hrest⟩ := Relation.TransGen.head'_iff.mp hu
    have hne : u ≠ v := by
      intro heq
      subst heq
      exact hself u hfirst
    rcases Relation.reflTransGen_iff_eq_or_transGen.mp hrest with heq | hback
    · exact absurd heq hne
    · exact ⟨u, v, hne, .single hfirst, hback⟩
  · intro h
    obtain ⟨u, v, -, hforth, hback⟩ := h
    exact ⟨u, hforth.trans hback⟩

end result

end TopologicalSort
