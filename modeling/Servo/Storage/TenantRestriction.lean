import Servo.Storage.MetadataChanges

/-! # The Metadata Tables as One Tenant Sees Them

    What a tenant sees of the metadata tables is their restriction to the rows
    that the policies show to it. As long as its own references are to its own
    rows, the calls of other tenants leave the restriction alone: neither a
    cascade nor an update nor a new row of theirs reaches a row it can see.
-/

namespace Servo

namespace Metadata

/-! ### The restriction to a tenant -/

/-- What the policies show to the tenant. -/
def restrict (A : TenantId) (db : Metadata) : Metadata where
  assets := db.assets.filter fun asset => visible_to A asset.tenant_id
  workflows := db.workflows.filter fun workflow => visible_to A workflow.tenant_id
  executions := db.executions.filter fun execution => execution.visible_to A
  asset_dependencies := db.asset_dependencies.filter (db.dependency_visible A)
  asset_checks := db.asset_checks.filter fun check => visible_to A check.tenant_id
  workflow_assets := db.workflow_assets

/-- All rows belong to a tenant, the references of `A` are to rows of `A`, and those of
    dependencies to assets. -/
structure Inv (A : TenantId) (db : Metadata) : Prop where
  asset_tenant : ∀ asset ∈ db.assets.rows, asset.tenant_id ≠ none
  workflow_tenant : ∀ workflow ∈ db.workflows.rows, workflow.tenant_id ≠ none
  execution_tenant : ∀ execution ∈ db.executions.rows, execution.tenant_id ≠ none
  check_tenant : ∀ check ∈ db.asset_checks.rows, check.tenant_id ≠ none
  own_workflow : ∀ execution ∈ db.executions.rows, execution.tenant_id = some A →
    ∃ workflow ∈ db.workflows.rows, workflow.id = execution.workflow_id ∧
      workflow.tenant_id = some A
  own_asset : ∀ check ∈ db.asset_checks.rows, check.tenant_id = some A →
    ∃ asset ∈ db.assets.rows, asset.id = check.asset_id ∧ asset.tenant_id = some A
  upstream : ∀ dependency ∈ db.asset_dependencies.rows,
    ∃ asset ∈ db.assets.rows, asset.id = dependency.upstream_asset_id
  downstream : ∀ dependency ∈ db.asset_dependencies.rows,
    ∃ asset ∈ db.assets.rows, asset.id = dependency.downstream_asset_id
  /-- Nothing is ever inserted into `workflow_assets`. -/
  workflow_assets : db.workflow_assets.rows = []

variable {A T : TenantId} {db db' : Metadata}

theorem visible_to_iff {owner : Option TenantId} (howner : owner ≠ none) :
    visible_to A owner = true ↔ owner = some A := by
  simp [visible_to, howner]

theorem not_visible_to {B : TenantId} (h : B ≠ A) : visible_to A (some B) = false := by
  simp [visible_to, h]

theorem execution_visible_to (execution : ExecutionModel) :
    execution.visible_to A = visible_to A execution.tenant_id := rfl

theorem asset_visible_iff {id : Uuid} : db.asset_visible A id = true ↔
    ∃ asset ∈ db.assets.rows, visible_to A asset.tenant_id = true ∧ asset.id = id := by
  simp only [asset_visible, visible_assets, List.any_eq_true, Table.mem_filter, decide_eq_true_eq,
    and_assoc]

/-- The policy of the dependencies is a matter of the visible assets. -/
theorem dependency_visible_congr (h : db'.visible_assets A = db.visible_assets A) :
    db'.dependency_visible A = db.dependency_visible A := by
  funext dependency
  simp only [dependency_visible, asset_visible, h]

theorem dependency_visible_iff {dependency : AssetDependencyModel} :
    db.dependency_visible A dependency = true ↔
      db.asset_visible A dependency.upstream_asset_id = true ∧
        db.asset_visible A dependency.downstream_asset_id = true := by
  rw [dependency_visible, Bool.and_eq_true]

/-! ### What the restriction shows -/

@[simp] theorem visible_assets_restrict :
    (db.restrict A).visible_assets A = db.visible_assets A := by
  simp [visible_assets, restrict, List.filter_filter]

@[simp] theorem visible_workflows_restrict :
    (db.restrict A).visible_workflows A = db.visible_workflows A := by
  simp [visible_workflows, restrict, List.filter_filter]

@[simp] theorem visible_executions_restrict :
    (db.restrict A).visible_executions A = db.visible_executions A := by
  simp [visible_executions, restrict, List.filter_filter]

@[simp] theorem visible_asset_checks_restrict :
    (db.restrict A).visible_asset_checks A = db.visible_asset_checks A := by
  simp [visible_asset_checks, restrict, List.filter_filter]

@[simp] theorem dependency_visible_restrict :
    (db.restrict A).dependency_visible A = db.dependency_visible A :=
  dependency_visible_congr visible_assets_restrict

@[simp] theorem visible_dependencies_restrict :
    (db.restrict A).visible_dependencies A = db.visible_dependencies A := by
  rw [visible_dependencies, dependency_visible_restrict, visible_dependencies]
  simp [restrict, List.filter_filter]

/-! ### The calls of others -/

/-- The rows with the id of one that is shown to another tenant are hidden from `A`. -/
theorem hidden_of_shown {ρ υ : Type} {key : ρ → Uuid} {uniq : ρ → υ} {t : Table key uniq}
    {owner : ρ → Option TenantId} {id : Uuid} {row : ρ} (hTA : T ≠ A)
    (howner : ∀ r ∈ t.rows, owner r ≠ none) (hfound : t.find? id = some row)
    (hshown : visible_to T (owner row) = true) :
    ∀ r ∈ t.rows, key r = id → visible_to A (owner r) = false := by
  intro r hr hid
  have hrow := Table.mem_of_find? hfound
  rw [Table.eq_of_key_eq hr hrow (hid.trans (Table.key_of_find? hfound).symm)]
  rw [(visible_to_iff (howner row hrow)).mp hshown]
  exact not_visible_to hTA

/-- The restriction is the same if the visible rows are. -/
theorem restrict_congr
    (hassets : db'.assets.filter (fun asset => visible_to A asset.tenant_id) =
      db.assets.filter fun asset => visible_to A asset.tenant_id)
    (hworkflows : db'.workflows.filter (fun workflow => visible_to A workflow.tenant_id) =
      db.workflows.filter fun workflow => visible_to A workflow.tenant_id)
    (hexecutions : db'.executions.filter (fun execution => execution.visible_to A) =
      db.executions.filter fun execution => execution.visible_to A)
    (hdependencies : db'.asset_dependencies.filter (db.dependency_visible A) =
      db.asset_dependencies.filter (db.dependency_visible A))
    (hchecks : db'.asset_checks.filter (fun check => visible_to A check.tenant_id) =
      db.asset_checks.filter fun check => visible_to A check.tenant_id)
    (hpositions : db'.workflow_assets = db.workflow_assets) :
    db'.restrict A = db.restrict A := by
  have hvisible : db'.dependency_visible A = db.dependency_visible A :=
    dependency_visible_congr (congrArg Table.rows hassets)
  rw [restrict, restrict, hvisible, hassets, hworkflows, hexecutions, hdependencies, hchecks,
    hpositions]

/-- Two visible assets of another tenant are not both visible to `A`, nor is one of them. -/
theorem dependency_hidden (hinv : Inv A db) (hTA : T ≠ A) {dependency : AssetDependencyModel}
    (hshown : db.dependency_visible T dependency = true) :
    db.dependency_visible A dependency = false := by
  by_contra hvisible
  rw [Bool.not_eq_false] at hvisible
  obtain ⟨asset, hasset, hto, hid⟩ := asset_visible_iff.mp (dependency_visible_iff.mp hshown).1
  obtain ⟨asset', hasset', hto', hid'⟩ :=
    asset_visible_iff.mp (dependency_visible_iff.mp hvisible).1
  rw [Table.eq_of_key_eq hasset' hasset (hid'.trans hid.symm)] at hto'
  have hnone := hinv.asset_tenant asset hasset
  rw [visible_to_iff hnone] at hto hto'
  exact hTA (Option.some.inj (hto.symm.trans hto'))

theorem touches_hidden {id : Uuid} {dependency : AssetDependencyModel}
    (hhidden : ∀ asset ∈ db.assets.rows, asset.id = id → visible_to A asset.tenant_id = false)
    (htouches : dependency.touches id = true) : db.dependency_visible A dependency = false := by
  by_contra hvisible
  rw [Bool.not_eq_false, dependency_visible_iff] at hvisible
  have hno : db.asset_visible A id = false := by
    by_contra hasset
    rw [Bool.not_eq_false] at hasset
    obtain ⟨asset, hmem, hto, hid⟩ := asset_visible_iff.mp hasset
    rw [hhidden asset hmem hid] at hto
    cases hto
  rw [AssetDependencyModel.touches, Bool.or_eq_true, decide_eq_true_eq, decide_eq_true_eq]
    at htouches
  rcases htouches with rfl | rfl
  · rw [hvisible.1] at hno
    cases hno
  · rw [hvisible.2] at hno
    cases hno

theorem delete_positions (hinv : Inv A db) (p : WorkflowAssetModel → Bool) :
    db.workflow_assets.delete p = db.workflow_assets := by
  apply Table.ext_rows
  rw [Table.delete, Table.rows_filter, hinv.workflow_assets, List.filter_nil]

/-- **Others.** What another tenant does is not seen. -/
theorem Change.restrict_eq (hTA : T ≠ A) (hinv : Inv A db) (h : Change A T db db') :
    db'.restrict A = db.restrict A := by
  cases h with
  | unchanged => rfl
  | insert_asset htenant hins =>
    have hhidden := Table.filter_of_insert?_hidden (q := fun asset => visible_to A asset.tenant_id)
      (by rw [htenant]; exact not_visible_to hTA) hins
    exact restrict_congr hhidden rfl rfl rfl rfl rfl
  | update_asset hfound hshown hupd =>
    have hrows := hidden_of_shown hTA hinv.asset_tenant hfound hshown
    have hhidden := Table.filter_of_update?_hidden
      (q := fun asset => visible_to A asset.tenant_id)
      (fun r hr hid => ⟨hrows r hr (of_decide_eq_true hid), hrows r hr (of_decide_eq_true hid)⟩)
      hupd
    exact restrict_congr hhidden rfl rfl rfl rfl rfl
  | delete_asset hfound hshown =>
    have hrows := hidden_of_shown hTA hinv.asset_tenant hfound hshown
    refine restrict_congr ?_ rfl rfl ?_ ?_ (delete_positions hinv _)
    · exact Table.filter_delete_of_hidden fun r hr hid => hrows r hr (of_decide_eq_true hid)
    · exact Table.filter_delete_of_hidden fun r _ htouches => touches_hidden hrows htouches
    · -- a check of `A` is one of an asset of `A`
      refine Table.filter_delete_of_hidden fun r hr hid => ?_
      by_contra hvisible
      rw [Bool.not_eq_false, visible_to_iff (hinv.check_tenant r hr)] at hvisible
      obtain ⟨asset, hasset, hasset_id, hown⟩ := hinv.own_asset r hr hvisible
      have hno := hrows asset hasset (hasset_id.trans (of_decide_eq_true hid))
      rw [hown] at hno
      simp [visible_to] at hno
  | insert_workflow htenant hins =>
    have hhidden := Table.filter_of_insert?_hidden
      (q := fun workflow => visible_to A workflow.tenant_id)
      (by rw [htenant]; exact not_visible_to hTA) hins
    exact restrict_congr rfl hhidden rfl rfl rfl rfl
  | update_workflow hfound hshown hupd =>
    have hrows := hidden_of_shown hTA hinv.workflow_tenant hfound hshown
    have hhidden := Table.filter_of_update?_hidden
      (q := fun workflow => visible_to A workflow.tenant_id)
      (fun r hr hid => ⟨hrows r hr (of_decide_eq_true hid), hrows r hr (of_decide_eq_true hid)⟩)
      hupd
    exact restrict_congr rfl hhidden rfl rfl rfl rfl
  | delete_workflow hfound hshown =>
    have hrows := hidden_of_shown hTA hinv.workflow_tenant hfound hshown
    refine restrict_congr rfl ?_ ?_ rfl rfl (delete_positions hinv _)
    · exact Table.filter_delete_of_hidden fun r hr hid => hrows r hr (of_decide_eq_true hid)
    · -- an execution of `A` is one of a workflow of `A`
      refine Table.filter_delete_of_hidden fun r hr hid => ?_
      by_contra hvisible
      rw [Bool.not_eq_false, execution_visible_to,
        visible_to_iff (hinv.execution_tenant r hr)] at hvisible
      obtain ⟨workflow, hworkflow, hworkflow_id, hown⟩ := hinv.own_workflow r hr hvisible
      have hno := hrows workflow hworkflow (hworkflow_id.trans (of_decide_eq_true hid))
      rw [hown] at hno
      simp [visible_to] at hno
  | insert_execution htenant hins hworkflow hown =>
    have hhidden := Table.filter_of_insert?_hidden (q := fun execution => execution.visible_to A)
      (by rw [execution_visible_to, htenant]; exact not_visible_to hTA) hins
    exact restrict_congr rfl rfl hhidden rfl rfl rfl
  | @update_execution row columns hfound hshown =>
    have hrows := hidden_of_shown hTA hinv.execution_tenant hfound hshown
    have hhidden := Table.filter_modify_hidden (t := db.executions) (f := (·.updatedTo columns))
      (p := fun r => r.id = columns.id) (q := fun execution => execution.visible_to A)
      (fun _ => ⟨rfl, rfl⟩)
      fun r hr hid => ⟨hrows r hr (of_decide_eq_true hid), hrows r hr (of_decide_eq_true hid)⟩
    exact restrict_congr rfl rfl hhidden rfl rfl rfl
  | delete_execution hfound hshown =>
    have hrows := hidden_of_shown hTA hinv.execution_tenant hfound hshown
    refine restrict_congr rfl rfl ?_ rfl rfl rfl
    exact Table.filter_delete_of_hidden fun r hr hid => hrows r hr (of_decide_eq_true hid)
  | insert_dependency hshown hins =>
    have hhidden := Table.filter_of_insert?_hidden (dependency_hidden hinv hTA hshown) hins
    exact restrict_congr rfl rfl rfl hhidden rfl rfl
  | delete_dependencies hshown =>
    refine restrict_congr rfl rfl rfl ?_ rfl rfl
    exact Table.filter_delete_of_hidden fun r hr hp => dependency_hidden hinv hTA (hshown r hr hp)
  | insert_check htenant hins hasset hown =>
    have hhidden := Table.filter_of_insert?_hidden (q := fun check => visible_to A check.tenant_id)
      (by rw [htenant]; exact not_visible_to hTA) hins
    exact restrict_congr rfl rfl rfl rfl hhidden rfl
  | update_check hfound hshown hupd =>
    have hrows := hidden_of_shown hTA hinv.check_tenant hfound hshown
    have hhidden := Table.filter_of_update?_hidden
      (q := fun check => visible_to A check.tenant_id)
      (fun r hr hid => ⟨hrows r hr (of_decide_eq_true hid), hrows r hr (of_decide_eq_true hid)⟩)
      hupd
    exact restrict_congr rfl rfl rfl rfl hhidden rfl
  | delete_check hfound hshown =>
    have hrows := hidden_of_shown hTA hinv.check_tenant hfound hshown
    refine restrict_congr rfl rfl rfl rfl ?_ rfl
    exact Table.filter_delete_of_hidden fun r hr hid => hrows r hr (of_decide_eq_true hid)

/-! ### The invariant -/

theorem Inv.empty (A : TenantId) : Inv A Metadata.empty where
  asset_tenant := fun _ h => nomatch h
  workflow_tenant := fun _ h => nomatch h
  execution_tenant := fun _ h => nomatch h
  check_tenant := fun _ h => nomatch h
  own_workflow := fun _ h => nomatch h
  own_asset := fun _ h => nomatch h
  upstream := fun _ h => nomatch h
  downstream := fun _ h => nomatch h
  workflow_assets := rfl

theorem ne_none_of_eq {owner : Option TenantId} (h : owner = some T) : owner ≠ none := by
  rw [h]
  exact Option.some_ne_none T

/-- An asset that no deleted row is survives. -/
theorem asset_survives {id id' : Uuid} (hne : id' ≠ id)
    (h : ∃ asset ∈ db.assets.rows, asset.id = id') :
    ∃ asset ∈ (db.assets.delete fun r => r.id = id).rows, asset.id = id' := by
  obtain ⟨asset, hasset, hid⟩ := h
  refine ⟨asset, Table.mem_delete.mpr ⟨hasset, decide_eq_false ?_⟩, hid⟩
  rw [hid]
  exact hne

theorem touches_eq_false {id : Uuid} {dependency : AssetDependencyModel}
    (h : dependency.touches id = false) :
    dependency.upstream_asset_id ≠ id ∧ dependency.downstream_asset_id ≠ id := by
  rw [AssetDependencyModel.touches, Bool.or_eq_false_iff] at h
  exact ⟨of_decide_eq_false h.1, of_decide_eq_false h.2⟩

/-- **The invariant is kept.** -/
theorem Change.inv (hinv : Inv A db) (h : Change A T db db') : Inv A db' := by
  cases h with
  | unchanged => exact hinv
  | insert_asset htenant hins =>
    exact { hinv with
      asset_tenant := Table.forall_of_insert? hins (ne_none_of_eq htenant) hinv.asset_tenant
      own_asset := fun check hcheck hown =>
        Table.exists_of_insert? hins (hinv.own_asset check hcheck hown)
      upstream := fun d hd => Table.exists_of_insert? hins (hinv.upstream d hd)
      downstream := fun d hd => Table.exists_of_insert? hins (hinv.downstream d hd) }
  | update_asset hfound hshown hupd =>
    exact { hinv with
      asset_tenant := Table.forall_of_update? hupd (fun _ h => h) hinv.asset_tenant
      own_asset := fun check hcheck hown =>
        Table.exists_of_update? hupd (fun _ h => h) (hinv.own_asset check hcheck hown)
      upstream := fun d hd => Table.exists_of_update? hupd (fun _ h => h) (hinv.upstream d hd)
      downstream := fun d hd => Table.exists_of_update? hupd (fun _ h => h) (hinv.downstream d hd) }
  | delete_asset hfound hshown =>
    -- nothing that is left refers to the asset
    refine { hinv with
      asset_tenant := Table.forall_of_delete hinv.asset_tenant
      check_tenant := Table.forall_of_delete hinv.check_tenant
      own_asset := fun check hcheck hown => ?_
      upstream := fun d hd => ?_
      downstream := fun d hd => ?_
      workflow_assets := ?_ }
    · obtain ⟨hcheck, hother⟩ := Table.mem_delete.mp hcheck
      exact Table.exists_of_delete (of_decide_eq_false hother) (hinv.own_asset check hcheck hown)
    · obtain ⟨hd, hother⟩ := Table.mem_delete.mp hd
      exact asset_survives (touches_eq_false hother).1 (hinv.upstream d hd)
    · obtain ⟨hd, hother⟩ := Table.mem_delete.mp hd
      exact asset_survives (touches_eq_false hother).2 (hinv.downstream d hd)
    · rw [delete_positions hinv]
      exact hinv.workflow_assets
  | insert_workflow htenant hins =>
    exact { hinv with
      workflow_tenant := Table.forall_of_insert? hins (ne_none_of_eq htenant) hinv.workflow_tenant
      own_workflow := fun execution hexecution hown =>
        Table.exists_of_insert? hins (hinv.own_workflow execution hexecution hown) }
  | update_workflow hfound hshown hupd =>
    exact { hinv with
      workflow_tenant := Table.forall_of_update? hupd (fun _ h => h) hinv.workflow_tenant
      own_workflow := fun execution hexecution hown =>
        Table.exists_of_update? hupd (fun _ h => h) (hinv.own_workflow execution hexecution hown) }
  | delete_workflow hfound hshown =>
    refine { hinv with
      workflow_tenant := Table.forall_of_delete hinv.workflow_tenant
      execution_tenant := Table.forall_of_delete hinv.execution_tenant
      own_workflow := fun execution hexecution hown => ?_
      workflow_assets := ?_ }
    · obtain ⟨hexecution, hother⟩ := Table.mem_delete.mp hexecution
      exact Table.exists_of_delete (of_decide_eq_false hother)
        (hinv.own_workflow execution hexecution hown)
    · rw [delete_positions hinv]
      exact hinv.workflow_assets
  | @insert_execution row executions workflow htenant hins hworkflow hown =>
    exact { hinv with
      execution_tenant := Table.forall_of_insert? hins (ne_none_of_eq htenant) hinv.execution_tenant
      own_workflow := Table.forall_of_insert? hins
        (fun hrow => ⟨workflow, Table.mem_of_find? hworkflow, Table.key_of_find? hworkflow,
          hown (Option.some.inj (htenant.symm.trans hrow))⟩) hinv.own_workflow }
  | @update_execution row columns hfound hshown =>
    have hupd := Table.update?_eq_modify (t := db.executions) (f := (·.updatedTo columns))
      (p := fun r => r.id = columns.id) fun _ => ⟨rfl, rfl⟩
    exact { hinv with
      execution_tenant := Table.forall_of_update? hupd (fun _ h => h) hinv.execution_tenant
      own_workflow := Table.forall_of_update? hupd (fun _ h => h) hinv.own_workflow }
  | delete_execution hfound hshown =>
    exact { hinv with
      execution_tenant := Table.forall_of_delete hinv.execution_tenant
      own_workflow := Table.forall_of_delete hinv.own_workflow }
  | insert_dependency hshown hins =>
    obtain ⟨hup, hdown⟩ := dependency_visible_iff.mp hshown
    obtain ⟨up, hup_mem, -, hup_id⟩ := asset_visible_iff.mp hup
    obtain ⟨down, hdown_mem, -, hdown_id⟩ := asset_visible_iff.mp hdown
    exact { hinv with
      upstream := Table.forall_of_insert? hins ⟨up, hup_mem, hup_id⟩ hinv.upstream
      downstream := Table.forall_of_insert? hins ⟨down, hdown_mem, hdown_id⟩ hinv.downstream }
  | delete_dependencies hshown =>
    exact { hinv with
      upstream := Table.forall_of_delete hinv.upstream
      downstream := Table.forall_of_delete hinv.downstream }
  | @insert_check row asset_checks asset htenant hins hasset hown =>
    exact { hinv with
      check_tenant := Table.forall_of_insert? hins (ne_none_of_eq htenant) hinv.check_tenant
      own_asset := Table.forall_of_insert? hins
        (fun hrow => ⟨asset, Table.mem_of_find? hasset, Table.key_of_find? hasset,
          hown (Option.some.inj (htenant.symm.trans hrow))⟩) hinv.own_asset }
  | update_check hfound hshown hupd =>
    exact { hinv with
      check_tenant := Table.forall_of_update? hupd (fun _ h => h) hinv.check_tenant
      own_asset := Table.forall_of_update? hupd (fun _ h => h) hinv.own_asset }
  | delete_check hfound hshown =>
    exact { hinv with
      check_tenant := Table.forall_of_delete hinv.check_tenant
      own_asset := Table.forall_of_delete hinv.own_asset }

end Metadata

end Servo
