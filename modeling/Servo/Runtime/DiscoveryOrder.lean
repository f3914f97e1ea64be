import Servo.Runtime.UpstreamDiscovery
import Servo.Storage.StateMachine

/-! # The Order of the Child Jobs

    The child job of an asset gets the order `max_depth - depth`, and the
    depth is the distance from the target. An asset that is upstream of
    another one is farther away only if the target does not reach it on a
    shorter way, or on one as long. Where it does, the order is not a
    topological one.
-/

namespace Servo

open BreadthFirst

/-- Among the child jobs of these assets, those upstream come first. -/
def OrdersTopologically (D : Deployment) (parent_job : BackfillJobModel)
    (deps : Uuid → List Uuid) (assets : List UpstreamAsset) : Prop :=
  ∀ u ∈ assets, ∀ v ∈ assets, u.1 ∈ deps v.1 → ∀ up_u down_u up_v down_v,
    (D.child_params parent_job u (max_upstream_depth assets) up_u down_u).execution_order <
      (D.child_params parent_job v (max_upstream_depth assets) up_v down_v).execution_order

/-- The target reaches an asset upstream of `v` by a path that is no longer than the shortest one
    to `v` itself, and `v` is near enough to be found. -/
def Shortcut (deps : Uuid → List Uuid) (target : Uuid) (max_depth : Int) : Prop :=
  ∃ u v k j, u ∈ deps v ∧ u ≠ target ∧ v ≠ target ∧ Distance deps target v k ∧
    (max_depth < 0 ∨ (k : Int) ≤ max_depth) ∧ j ≤ k ∧ Steps deps j target u

theorem child_order_lt_iff (D : Deployment) (parent_job : BackfillJobModel) (u v : UpstreamAsset)
    (max_depth : Int) (up_u down_u up_v down_v : Option PartitionConfig) :
    (D.child_params parent_job u max_depth up_u down_u).execution_order <
        (D.child_params parent_job v max_depth up_v down_v).execution_order ↔ v.2.2 < u.2.2 := by
  show max_depth - u.2.2 < max_depth - v.2.2 ↔ _
  omega

section order
variable {names : List (Uuid × String)} {deps : Uuid → List Uuid} {target : Uuid}
  {max_depth : Int} {assets : List UpstreamAsset}

/-- **What a discovery returns**, if there is not more than it may find: the assets within the
    limit, at their distance. -/
theorem discovered_iff (upstream : Finset Uuid) (hcard : upstream.card ≤ MAX_ASSETS)
    (hupstream : ∀ v k, v ≠ target → Distance deps target v k → v ∈ upstream)
    (h : discover_upstream_assets (dependency_graph names deps) target max_depth = .ok assets)
    {v : Uuid} {name : String} {d : Int} :
    (v, name, d) ∈ assets ↔ ∃ k : Nat, (v, name, d) = named names (v, k) ∧ v ≠ target ∧
      Distance deps target v k ∧ (max_depth < 0 ∨ (k : Int) ≤ max_depth) := by
  by_cases hdepth : max_depth = 0
  · subst hdepth
    have hnil : assets = [] := by
      unfold discover_upstream_assets at h
      rw [if_pos rfl] at h
      exact (Except.ok.inj h).symm
    subst hnil
    constructor
    · exact fun hmem => absurd hmem List.not_mem_nil
    · rintro ⟨k, -, -, hdistance, hwithin⟩
      have := hdistance.pos
      omega
  · have hself : target ∉ deps target := by
      intro hself
      rw [discover_refused hdepth hself] at h
      cases h
    obtain ⟨done, hdiscover, -, hdone⟩ := discover_all_within names hdepth hself upstream hcard
      fun w k hin => hupstream w k hin.1 hin.2.1
    rw [hdiscover] at h
    have hassets := Except.ok.inj h
    rw [← hassets, List.mem_insertionSort, List.mem_map]
    constructor
    · intro ⟨⟨w, k⟩, hp, heq⟩
      obtain rfl : w = v := congrArg (·.1) heq
      exact ⟨k, heq.symm, (hdone w k).mp hp⟩
    · intro ⟨k, heq, hin⟩
      exact ⟨(v, k), (hdone v k).mpr hin, heq.symm⟩

/-- **When the order is topological**: if and only if no asset within the limit has an upstream
    asset that the target reaches on a way no longer. -/
theorem orders_topologically_iff (D : Deployment) (parent_job : BackfillJobModel)
    (upstream : Finset Uuid) (hcard : upstream.card ≤ MAX_ASSETS)
    (hupstream : ∀ v k, v ≠ target → Distance deps target v k → v ∈ upstream)
    (h : discover_upstream_assets (dependency_graph names deps) target max_depth = .ok assets) :
    OrdersTopologically D parent_job deps assets ↔ ¬ Shortcut deps target max_depth := by
  have hfound := @discovered_iff names deps target max_depth assets upstream hcard hupstream h
  constructor
  · intro horder ⟨u, v, k, j, hu, hune, hvne, hv, hwithin, hle, hsteps⟩
    have hj : 0 < j := by
      by_contra hzero
      obtain rfl : j = 0 := by omega
      exact hune hsteps.symm
    -- `u` is as near as `v`, so it is found as well
    obtain ⟨i, hi, hij⟩ := exists_distance hj hsteps
    have hmem_u : named names (u, i) ∈ assets :=
      hfound.mpr ⟨i, rfl, hune, hi, hwithin.imp_right fun hmax => by omega⟩
    have hmem_v : named names (v, k) ∈ assets := hfound.mpr ⟨k, rfl, hvne, hv, hwithin⟩
    have hless := horder _ hmem_u _ hmem_v hu none none none none
    rw [child_order_lt_iff] at hless
    have hless' : (k : Int) < i := hless
    omega
  · intro hnone u hu v hv huv up_u down_u up_v down_v
    rw [child_order_lt_iff]
    obtain ⟨i, hequ, hune, hi, -⟩ := hfound.mp hu
    obtain ⟨k, heqv, hvne, hk, hwithin⟩ := hfound.mp hv
    have hdepth_u : u.2.2 = i := congrArg (·.2.2) hequ
    have hdepth_v : v.2.2 = k := congrArg (·.2.2) heqv
    by_contra hless
    exact hnone ⟨u.1, v.1, k, i, huv, hune, hvne, hk, hwithin, by omega, hi.steps⟩

end order

/-! ### A chain, and a shortcut in it -/

/-- A job for asset `7` that asks for its upstream assets. -/
def upstream_request_job : BackfillJobModel :=
  { JobStates.fresh_job 1 with
    parent_job_id := none
    include_upstream := true
    max_upstream_depth := 2
    valid_upstream_depth := by decide }

/-- Asset `7` depends on asset `9`, and asset `9` on asset `8`. -/
def straight (asset_id : Uuid) : List Uuid :=
  if asset_id = 7 then [9] else if asset_id = 9 then [8] else []

/-- Asset `7` depends on asset `8` also directly. -/
def with_shortcut (asset_id : Uuid) : List Uuid :=
  if asset_id = 7 then [9, 8] else if asset_id = 9 then [8] else []

theorem mem_straight {u v : Uuid} (h : u ∈ straight v) : (v = 7 ∧ u = 9) ∨ (v = 9 ∧ u = 8) := by
  unfold straight at h
  split at h
  · next heq => exact .inl ⟨heq, List.mem_singleton.mp h⟩
  · split at h
    · next heq => exact .inr ⟨heq, List.mem_singleton.mp h⟩
    · cases h

/-- There is no shortcut in the chain. -/
theorem no_shortcut_straight : ¬ Shortcut straight 7 (-1) := by
  rintro ⟨u, v, k, j, hu, -, hv, hdistance, -, hle, hsteps⟩
  rcases mem_straight hu with ⟨rfl, -⟩ | ⟨rfl, rfl⟩
  · exact hv rfl
  · -- asset `9` is at distance 1, and asset `8` is not
    have hone : k ≤ 1 := hdistance.least 1 Nat.one_pos ⟨7, rfl, by decide⟩
    have hj : j = 0 ∨ j = 1 := by omega
    rcases hj with rfl | rfl
    · cases (show (7 : Uuid) = 8 from hsteps)
    · obtain ⟨c, hc, hmem⟩ := hsteps
      obtain rfl : (7 : Uuid) = c := hc
      exact absurd hmem (by decide)

theorem straight_is_ordered :
    ∃ assets, discover_upstream_assets (dependency_graph [] straight) 7 (-1) = .ok assets ∧
      assets.map (·.1) = [8, 9] ∧
      OrdersTopologically (Backfill.uniform {} "tenant") upstream_request_job straight assets := by
  refine ⟨[named [] (8, 2), named [] (9, 1)], by decide +kernel, rfl, ?_⟩
  refine (@orders_topologically_iff [] straight 7 (-1) _ _ _ {8, 9} (by decide)
    (fun v k _ hdistance => ?_) (by decide +kernel)).mpr no_shortcut_straight
  obtain ⟨n, rfl⟩ := Nat.exists_eq_succ_of_ne_zero hdistance.pos.ne'
  obtain ⟨c, -, hmem⟩ := hdistance.steps
  rcases mem_straight hmem with ⟨-, rfl⟩ | ⟨-, rfl⟩ <;> decide

/-- A graph in which every dependency has a smaller rank has no cycle. -/
theorem acyclic_of_rank {deps : Uuid → List Uuid} (rank : Uuid → Nat)
    (hrank : ∀ v, ∀ u ∈ deps v, rank u < rank v) (v : Uuid) :
    ¬ Relation.TransGen (fun v u => u ∈ deps v) v v := by
  have hless : ∀ u, Relation.TransGen (fun v u => u ∈ deps v) v u → rank u < rank v := by
    intro u h
    induction h with
    | single hu => exact hrank v _ hu
    | tail _ hu ih => exact (hrank _ _ hu).trans ih
  exact fun hcycle => Nat.lt_irrefl _ (hless v hcycle)

/-- With the shortcut, the assets `8` and `9` get the same order. -/
theorem shortcut_is_not_ordered :
    ¬ ∀ (D : Deployment) (parent_job : BackfillJobModel) (names : List (Uuid × String))
      (deps : Uuid → List Uuid) (target : Uuid) (max_depth : Int) (assets : List UpstreamAsset)
      (upstream : Finset Uuid),
      (∀ v, ¬ Relation.TransGen (fun v u => u ∈ deps v) v v) →
      upstream.card ≤ MAX_ASSETS →
      (∀ v k, v ≠ target → Distance deps target v k → v ∈ upstream) →
      discover_upstream_assets (dependency_graph names deps) target max_depth = .ok assets →
        OrdersTopologically D parent_job deps assets := by
  intro hall
  have hmem : ∀ v, ∀ u ∈ with_shortcut v, (v = 7 ∧ (u = 9 ∨ u = 8)) ∨ (v = 9 ∧ u = 8) := by
    intro v u h
    unfold with_shortcut at h
    split at h
    · next heq => exact .inl ⟨heq, by simpa using h⟩
    · split at h
      · next heq => exact .inr ⟨heq, List.mem_singleton.mp h⟩
      · cases h
  have horder := hall (Backfill.uniform {} "tenant") upstream_request_job [] with_shortcut 7 (-1)
    [named [] (9, 1), named [] (8, 1)] {8, 9} ?acyclic (by decide) ?upstream (by decide +kernel)
  case acyclic =>
    refine acyclic_of_rank (fun v => if v = 7 then 2 else if v = 9 then 1 else 0) ?_
    intro v u hu
    rcases hmem v u hu with ⟨rfl, rfl | rfl⟩ | ⟨rfl, rfl⟩ <;> decide
  case upstream =>
    intro v k _ hdistance
    obtain ⟨n, rfl⟩ := Nat.exists_eq_succ_of_ne_zero hdistance.pos.ne'
    obtain ⟨c, -, hu⟩ := hdistance.steps
    rcases hmem c v hu with ⟨-, rfl | rfl⟩ | ⟨-, rfl⟩ <;> decide
  have hless := horder _ (List.mem_cons_of_mem _ List.mem_cons_self) _ List.mem_cons_self
    (by decide) none none none none
  rw [child_order_lt_iff] at hless
  exact absurd hless (by decide)

end Servo
