import Servo.Core.Compiler

/-! # The Execution Order

    What `compile` returns is a topological order of the workflow's assets.
    Where every dependency belongs to the workflow and no asset is listed
    twice, it fails exactly on a cycle; a workflow that lists an asset twice
    is always reported as circular, since the order is compared in length with
    the list and not with the set of assets.
-/

namespace Servo

open TopologicalSort

namespace WorkflowCompiler

variable {hash : HashOrder AssetId} {compiler : WorkflowCompiler} {workflow : Workflow}

/-! ### The sort -/

theorem mem_edges_to {edge : AssetId × AssetId} {asset_id : AssetId} :
    edge ∈ compiler.edges_to asset_id ↔ edge.2 = asset_id ∧
      ∃ asset, compiler.assets_by_id asset_id = some asset ∧
        ∃ dependency ∈ asset.dependencies, dependency.upstream_asset_id = edge.1 := by
  unfold edges_to
  cases compiler.assets_by_id asset_id with
  | none => simp
  | some asset =>
    simp only [List.mem_map, Option.some.injEq, exists_eq_left']
    constructor
    · rintro ⟨dependency, hmem, rfl⟩
      exact ⟨rfl, dependency, hmem, rfl⟩
    · rintro ⟨rfl, dependency, hmem, hupstream⟩
      exact ⟨dependency, hmem, by rw [hupstream]⟩

theorem mem_dependency_edges {assets : List AssetId} {edge : AssetId × AssetId} :
    edge ∈ compiler.dependency_edges assets ↔ edge.2 ∈ assets ∧
      ∃ asset, compiler.assets_by_id edge.2 = some asset ∧
        ∃ dependency ∈ asset.dependencies, dependency.upstream_asset_id = edge.1 := by
  unfold dependency_edges
  simp only [List.mem_flatMap, mem_edges_to]
  constructor
  · rintro ⟨asset_id, hmem, rfl, hasset⟩
    exact ⟨hmem, hasset⟩
  · intro ⟨hmem, hasset⟩
    exact ⟨edge.2, hmem, rfl, hasset⟩

/-- When the dependencies have been counted, the loop leaves an order that nothing can be added
    to, and its length decides. -/
theorem topological_sort_of_accepted (hash : HashOrder AssetId)
    (haccepted : ∀ edge ∈ compiler.dependency_edges workflow.assets,
      compiler.Accepted workflow.assets.dedup edge) :
    ∃ indegree order,
      Inv (compiler.dependency_edges workflow.assets) workflow.assets.dedup indegree [] order ∧
      compiler.topological_sort hash workflow =
        if order.length ≠ workflow.assets.length then .error .CircularDependency
        else .ok order := by
  let edges := compiler.dependency_edges workflow.assets
  let ready := (hash.order workflow.assets.dedup).filter fun asset_id => degree edges asset_id = 0
  have hperm := hash.perm workflow.assets.dedup
  have hnodup : ready.Nodup := (hperm.nodup_iff.mpr (List.nodup_dedup _)).filter _
  have hready : ∀ v, v ∈ ready ↔ v ∈ workflow.assets.dedup ∧ degree edges v = 0 := by
    intro v
    rw [List.mem_filter, hperm.mem_iff, decide_eq_true_eq]
  have hcounts : workflow.assets.foldlM (compiler.count_asset workflow.assets.dedup)
      (Counts.of []) = .ok (Counts.of edges) := count_assets_eq_ok_iff.mpr ⟨haccepted, rfl⟩
  have htargets : ∀ edge ∈ edges, edge.2 ∈ workflow.assets.dedup := by
    intro edge hedge
    exact List.mem_dedup.mpr (mem_dependency_edges.mp hedge).1
  have hfuel : workflow.assets.dedup.length ≤
      ([] : List AssetId).length + workflow.assets.dedup.length := by simp
  obtain ⟨indegree, hinv⟩ := drain_inv (Inv.start hnodup hready) htargets hfuel
  refine ⟨indegree, _, hinv, ?_⟩
  unfold topological_sort
  show (workflow.assets.foldlM _ (Counts.of []) >>= _) = _
  rw [hcounts]
  rfl

theorem accepted_of_topological_sort {order : List AssetId}
    (h : compiler.topological_sort hash workflow = .ok order) :
    ∀ edge ∈ compiler.dependency_edges workflow.assets,
      compiler.Accepted workflow.assets.dedup edge := by
  obtain ⟨counts, hcounts, -⟩ := Fallible.bind_eq_ok_iff.mp h
  have hcounts' : workflow.assets.foldlM (compiler.count_asset workflow.assets.dedup)
      (Counts.of []) = .ok counts := hcounts
  exact (count_assets_eq_ok_iff.mp hcounts').1

theorem validate_assets_exist_eq_ok_iff {u : Unit} :
    compiler.validate_assets_exist workflow = .ok u ↔
      ∀ asset_id ∈ workflow.assets, (compiler.assets_by_id asset_id).isSome = true := by
  unfold validate_assets_exist
  induction workflow.assets with
  | nil => simp [pure, Except.pure]
  | cons asset_id assets ih =>
    rw [List.forM_eq_forM] at ih ⊢
    rw [List.forM_cons, Fallible.bind_eq_ok_iff, List.forall_mem_cons, ← ih]
    by_cases hasset : (compiler.assets_by_id asset_id).isSome = true
    · simp [hasset]
    · simp [hasset]

/-! ### Soundness -/

/-- What is compiled is a topological order of the assets of the workflow. -/
theorem compile_sound {plan : ExecutionPlan} (h : compiler.compile hash workflow = .ok plan) :
    plan.workflow_id = workflow.id ∧ plan.execution_order.Perm workflow.assets ∧
      plan.execution_order.Nodup ∧
      ∀ asset_id ∈ workflow.assets, ∀ asset, compiler.assets_by_id asset_id = some asset →
        ∀ dependency ∈ asset.dependencies, dependency.upstream_asset_id ∈ workflow.assets →
          plan.execution_order.idxOf dependency.upstream_asset_id <
            plan.execution_order.idxOf asset_id := by
  obtain ⟨u, -, h⟩ := Fallible.bind_eq_ok_iff.mp h
  obtain ⟨execution_order, hsort, hplan⟩ := Fallible.bind_eq_ok_iff.mp h
  cases hplan
  obtain ⟨indegree, order, hinv, heq⟩ :=
    topological_sort_of_accepted hash (accepted_of_topological_sort hsort)
  rw [heq] at hsort
  split at hsort
  · cases hsort
  · next hlength =>
    obtain rfl : order = execution_order := Except.ok.inj hsort
    have hlength : order.length = workflow.assets.length := by simpa using hlength
    have hnodup := hinv.order_nodup
    -- as long as the list, so the list has no repetition, and all of it is there
    have hle : order.length ≤ workflow.assets.dedup.length :=
      (List.subperm_of_subset hnodup hinv.subset).length_le
    have hdedup : workflow.assets.dedup = workflow.assets :=
      (List.dedup_sublist _).eq_of_length_le (by omega)
    have hperm : order.Perm workflow.assets.dedup :=
      (List.subperm_of_subset hnodup hinv.subset).perm_of_length_le (by rw [hdedup]; omega)
    rw [hdedup] at hperm
    refine ⟨rfl, hperm, hnodup, ?_⟩
    intro asset_id hasset_id asset hasset dependency hdependency _
    have hedge : (dependency.upstream_asset_id, asset_id) ∈
        compiler.dependency_edges workflow.assets :=
      mem_dependency_edges.mpr ⟨hasset_id, asset, hasset, dependency, hdependency, rfl⟩
    exact (hinv.sorted.idxOf_lt hedge (hperm.mem_iff.mpr hasset_id)).2

/-- Two registered assets, of which the second depends on the first. -/
def extract : Asset := ⟨⟨1⟩, "extract", []⟩
def load : Asset := (⟨⟨2⟩, "load", []⟩ : Asset).add_dependency extract.id .data

/-- A compiler with both of them. -/
def registered : WorkflowCompiler where
  assets_by_id := Function.update (Function.update (fun _ => none) extract.id (some extract))
    load.id (some load)
  assets_by_name := Function.update (Function.update (fun _ => none) extract.name
    (some extract.id)) load.name (some load.id)

example : (do (← new.register_asset extract).register_asset load) =
    .ok registered := rfl

/-- The keys in the order in which they were inserted. -/
def insertion_order : HashOrder AssetId := ⟨id, fun _ => .refl _⟩

def nightly (assets : List AssetId) : Workflow := ⟨9, assets⟩

theorem load_after_extract :
    registered.compile insertion_order (nightly [load.id, extract.id]) =
      .ok ⟨9, [extract.id, load.id]⟩ ∧
    ([extract.id, load.id] : List AssetId).idxOf extract.id <
      ([extract.id, load.id] : List AssetId).idxOf load.id := by
  have hcompile : registered.compile insertion_order (nightly [load.id, extract.id]) =
      .ok ⟨9, [extract.id, load.id]⟩ := by decide +kernel
  exact ⟨hcompile, (compile_sound hcompile).2.2.2 load.id (by decide) load rfl
    ⟨extract.id, .data⟩ (by decide) (by decide)⟩

/-! ### Completeness -/

/-- `upstream` is a dependency of `asset_id`, both in the workflow. -/
def DependsOn (compiler : WorkflowCompiler) (workflow : Workflow) (upstream asset_id : AssetId) :
    Prop :=
  upstream ∈ workflow.assets ∧ asset_id ∈ workflow.assets ∧
    ∃ asset, compiler.assets_by_id asset_id = some asset ∧
      ∃ dependency ∈ asset.dependencies, dependency.upstream_asset_id = upstream

/-- There is a cycle of dependencies in the workflow. -/
def Circular (compiler : WorkflowCompiler) (workflow : Workflow) : Prop :=
  ∃ asset_id, Relation.TransGen (compiler.DependsOn workflow) asset_id asset_id

/-- All assets of the workflow are registered, and all their dependencies belong to it. -/
def Closed (compiler : WorkflowCompiler) (workflow : Workflow) : Prop :=
  ∀ asset_id ∈ workflow.assets, ∃ asset, compiler.assets_by_id asset_id = some asset ∧
    ∀ dependency ∈ asset.dependencies, dependency.upstream_asset_id ∈ workflow.assets

/-- A cycle is reported, and nothing else is. -/
def CompilesRightly (hash : HashOrder AssetId) (compiler : WorkflowCompiler)
    (workflow : Workflow) : Prop :=
  (compiler.compile hash workflow = .error .CircularDependency ↔ compiler.Circular workflow) ∧
    (¬ compiler.Circular workflow → ∃ plan, compiler.compile hash workflow = .ok plan)

theorem Closed.mem_edges_iff (h : compiler.Closed workflow) {u v : AssetId} :
    (u, v) ∈ compiler.dependency_edges workflow.assets ↔ compiler.DependsOn workflow u v := by
  rw [mem_dependency_edges]
  constructor
  · rintro ⟨hv, asset, hasset, dependency, hmem, rfl⟩
    obtain ⟨asset', hasset', hdependencies⟩ := h v hv
    obtain rfl : asset = asset' := Option.some.inj (hasset.symm.trans hasset')
    exact ⟨hdependencies dependency hmem, hv, asset, hasset, dependency, hmem, rfl⟩
  · rintro ⟨-, hv, hasset⟩
    exact ⟨hv, hasset⟩

theorem Closed.cyclic_iff (h : compiler.Closed workflow) :
    Cyclic (compiler.dependency_edges workflow.assets) ↔ compiler.Circular workflow := by
  have hrel : Edge (compiler.dependency_edges workflow.assets) = compiler.DependsOn workflow := by
    funext u v
    exact propext h.mem_edges_iff
  unfold Cyclic Circular
  rw [hrel]

/-- On such a workflow the compiler always comes to the comparison of the lengths. -/
theorem Closed.compile_eq (hash : HashOrder AssetId) (h : compiler.Closed workflow) :
    ∃ indegree order,
      Inv (compiler.dependency_edges workflow.assets) workflow.assets.dedup indegree [] order ∧
      compiler.compile hash workflow =
        if order.length ≠ workflow.assets.length then .error .CircularDependency
        else .ok ⟨workflow.id, order⟩ := by
  have hvalid : compiler.validate_assets_exist workflow = .ok () := by
    refine validate_assets_exist_eq_ok_iff.mpr fun asset_id hmem => ?_
    obtain ⟨asset, hasset, -⟩ := h asset_id hmem
    simp [hasset]
  have haccepted : ∀ edge ∈ compiler.dependency_edges workflow.assets,
      compiler.Accepted workflow.assets.dedup edge := by
    intro edge hedge
    obtain ⟨hmem, -⟩ := h.mem_edges_iff.mp hedge
    obtain ⟨asset, hasset, -⟩ := h edge.1 hmem
    exact ⟨by simp [hasset], List.mem_dedup.mpr hmem⟩
  obtain ⟨indegree, order, hinv, hsort⟩ := topological_sort_of_accepted hash haccepted
  refine ⟨indegree, order, hinv, ?_⟩
  unfold compile
  rw [hvalid, Fallible.ok_bind, hsort]
  split <;> rfl

/-- All are emitted exactly if there is no cycle. -/
theorem Closed.length_eq_iff (h : compiler.Closed workflow) {indegree : AssetId → Nat}
    {order : List AssetId}
    (hinv : Inv (compiler.dependency_edges workflow.assets) workflow.assets.dedup indegree []
      order) :
    order.length = workflow.assets.dedup.length ↔ ¬ compiler.Circular workflow := by
  have hmem : ∀ edge ∈ compiler.dependency_edges workflow.assets,
      edge.1 ∈ workflow.assets.dedup ∧ edge.2 ∈ workflow.assets.dedup := by
    intro edge hedge
    obtain ⟨hu, hv, -⟩ := h.mem_edges_iff.mp hedge
    exact ⟨List.mem_dedup.mpr hu, List.mem_dedup.mpr hv⟩
  rw [← h.cyclic_iff,
    ← hinv.complete_iff (fun edge hedge => (hmem edge hedge).1) fun edge hedge =>
      (hmem edge hedge).2]
  have hsubperm := List.subperm_of_subset hinv.order_nodup hinv.subset
  constructor
  · intro hlength
    exact (hsubperm.perm_of_length_le hlength.ge).symm.subset
  · intro hsub
    exact le_antisymm hsubperm.length_le
      (List.subperm_of_subset (List.nodup_dedup _) hsub).length_le

/-- The compiler is right exactly about the workflows that list no asset twice, and about those
    that have a cycle. -/
theorem compiles_rightly_iff (hclosed : compiler.Closed workflow) :
    CompilesRightly hash compiler workflow ↔
      workflow.assets.Nodup ∨ compiler.Circular workflow := by
  obtain ⟨indegree, order, hinv, hcompile⟩ := hclosed.compile_eq hash
  have hcircular := hclosed.length_eq_iff hinv
  have hle : order.length ≤ workflow.assets.dedup.length :=
    (List.subperm_of_subset hinv.order_nodup hinv.subset).length_le
  have hdedup : workflow.assets.dedup.length ≤ workflow.assets.length :=
    (List.dedup_sublist _).length_le
  unfold CompilesRightly
  by_cases hcycle : compiler.Circular workflow
  · have hne : order.length ≠ workflow.assets.dedup.length := fun heq => hcircular.mp heq hcycle
    rw [hcompile, if_pos (by omega)]
    simp [hcycle]
  · have heq : order.length = workflow.assets.dedup.length := hcircular.mpr hcycle
    by_cases hnodup : workflow.assets.Nodup
    · have hlength : ¬ order.length ≠ workflow.assets.length := by
        rw [heq, hnodup.dedup]
        simp
      rw [hcompile, if_neg hlength]
      simp [hcycle, hnodup]
    · -- an asset is listed twice: the list is longer than any order
      have hlt : workflow.assets.dedup.length ≠ workflow.assets.length := by
        intro hsame
        exact hnodup (((List.dedup_sublist _).eq_of_length hsame) ▸ List.nodup_dedup _)
      rw [hcompile, if_pos (by omega)]
      simp [hcycle, hnodup]

theorem two_assets_compile : CompilesRightly insertion_order registered
    (nightly [load.id, extract.id]) := by
  have hclosed : registered.Closed (nightly [load.id, extract.id]) := by
    refine List.forall_mem_cons.mpr ⟨⟨load, rfl, by decide⟩, ?_⟩
    exact List.forall_mem_cons.mpr ⟨⟨extract, rfl, by decide⟩, by simp⟩
  exact (compiles_rightly_iff hclosed).mpr (.inl (by decide))

/-- A workflow to which an asset without dependencies has been added twice. -/
def extract_twice : Workflow := ((nightly []).add_asset extract.id).add_asset extract.id

theorem extract_twice_is_not_circular : registered.Closed extract_twice ∧
    registered.compile insertion_order extract_twice = .error .CircularDependency ∧
    ¬ registered.Circular extract_twice := by
  refine ⟨?_, by decide +kernel, ?_⟩
  · intro asset_id hmem
    have heq : asset_id = extract.id := by simpa [extract_twice, nightly, Workflow.add_asset]
      using hmem
    exact ⟨extract, by rw [heq]; rfl, by decide⟩
  · intro ⟨asset_id, hcycle⟩
    obtain ⟨upstream, -, -, hmem, asset, hasset, dependency, hdependency, -⟩ :=
      Relation.TransGen.tail'_iff.mp hcycle
    have heq : asset_id = extract.id := by simpa [extract_twice, nightly, Workflow.add_asset]
      using hmem
    rw [heq] at hasset
    obtain rfl : extract = asset := Option.some.inj hasset
    cases hdependency

end WorkflowCompiler

end Servo
