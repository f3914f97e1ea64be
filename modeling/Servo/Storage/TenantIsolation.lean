import Servo.Framework.Noninterference
import Servo.Storage.TenantRestriction

/-! # Isolation of Tenants

    A tenant's own calls do on its restriction of the tables what they do on
    the tables, unless they refer to a row of another tenant: foreign keys and
    UNIQUE(asset_id, name) see the rows that the policies hide. So the results
    of a tenant are those it would have on its own exactly if it never refers
    to rows of others.
-/

namespace Servo

open Fallible

namespace Executions

variable {A : TenantId} {executions : Executions} (execution : ExecutionModel)

/-- No hidden row has the unique key of a row of the tenant. -/
theorem unique_key_ne {execution : ExecutionModel}
    (hfresh : executions.find? execution.id = none) {r : ExecutionModel}
    (hr : r ∈ executions.rows) (hhidden : r.visible_to A = false) :
    r.unique_key ≠ { execution with tenant_id := some A }.unique_key := by
  have hid : r.id ≠ execution.id := Table.find?_eq_none_iff.mp hfresh r hr
  simp only [ExecutionModel.visible_to, Bool.or_eq_false_iff, decide_eq_false_iff_not] at hhidden
  unfold ExecutionModel.unique_key
  cases htenant : r.tenant_id with
  | none => exact absurd htenant hhidden.1
  | some tenant_id =>
    cases r.idempotency_key <;> cases execution.idempotency_key <;> simp only [ne_eq]
    · simpa using hid
    · simp
    · simp
    · intro heq
      have htenants := (Prod.mk.inj (Sum.inl.inj heq)).1
      exact hhidden.2 (by rw [htenant, htenants])

/-- The INSERT on the tenant's rows. -/
theorem create_execution_filter (hfresh : executions.find? execution.id = none) :
    create_execution (executions.filter fun r => r.visible_to A) execution A =
      (create_execution executions execution A).map (·.filter fun r => r.visible_to A) := by
  have hkey := Table.find?_eq_none_iff.mp hfresh
  have hins := Table.insert?_filter (t := executions) (q := fun r => r.visible_to A)
    (r := { execution with tenant_id := some A }) (by simp [ExecutionModel.visible_to])
    fun r hr hhidden => ⟨hkey r hr, unique_key_ne hfresh hr hhidden⟩
  have hany : ∀ rows ⊆ executions.rows, rows.any (fun r => r.id = execution.id) = false := by
    intro rows hrows
    rw [List.any_eq_false]
    intro r hr
    simpa using hkey r (hrows hr)
  unfold create_execution
  simp only
  split
  · rfl
  · rw [hins]
    cases executions.insert? { execution with tenant_id := some A } with
    | some executions' => rfl
    | none =>
      simp only [Option.map_none, hany _ (List.Subset.refl _), map_error, Table.rows_filter,
        hany _ List.filter_sublist.subset]

/-- The idempotent INSERT on the tenant's rows. -/
theorem create_execution_or_get_existing_filter
    (hfresh : executions.find? execution.id = none) :
    create_execution_or_get_existing (executions.filter fun r => r.visible_to A) execution A =
      (create_execution_or_get_existing executions execution A).map fun outcome =>
        (outcome.1.filter fun r => r.visible_to A, outcome.2) := by
  have hkey := Table.find?_eq_none_iff.mp hfresh
  have hins := Table.insert?_filter (t := executions) (q := fun r => r.visible_to A)
    (r := { execution with tenant_id := some A }) (by simp [ExecutionModel.visible_to])
    fun r hr hhidden => ⟨hkey r hr, unique_key_ne hfresh hr hhidden⟩
  -- a conflict is with a row of the tenant
  have hconflict : (executions.filter fun r => r.visible_to A).rows.any (fun r =>
      r.unique_key = { execution with tenant_id := some A }.unique_key) =
      executions.rows.any fun r =>
        r.unique_key = { execution with tenant_id := some A }.unique_key := by
    refine Table.rows_any_filter fun r hr huniq => ?_
    by_contra hhidden
    exact unique_key_ne hfresh hr (Bool.eq_false_iff.mpr hhidden) (of_decide_eq_true huniq)
  unfold create_execution_or_get_existing
  simp only
  split
  · rfl
  · rw [hconflict, hins]
    split
    · rw [Table.rows_find?_filter]
      · split <;> rfl
      · intro r hr
        rw [Bool.and_eq_true, Bool.and_eq_true] at hr
        exact hr.1.1
    · cases executions.insert? { execution with tenant_id := some A } <;> rfl

end Executions

namespace Metadata

variable {A : TenantId} {db : Metadata}

/-! ### Keys that hidden rows cannot hold -/

theorem asset_key_ne {r row : AssetModel} (hrow : row.tenant_id = some A)
    (hhidden : visible_to A r.tenant_id = false) : r.unique_key ≠ row.unique_key := by
  unfold AssetModel.unique_key
  rw [hrow]
  cases htenant : r.tenant_id with
  | none => simp
  | some tenant_id =>
    intro heq
    have htenants := (Prod.mk.inj (Sum.inl.inj heq)).2
    rw [htenant, htenants] at hhidden
    simp [visible_to] at hhidden

theorem workflow_key_ne {r row : WorkflowModel} (hrow : row.tenant_id = some A)
    (hhidden : visible_to A r.tenant_id = false) : r.unique_key ≠ row.unique_key := by
  unfold WorkflowModel.unique_key
  rw [hrow]
  cases htenant : r.tenant_id with
  | none => simp
  | some tenant_id =>
    intro heq
    have htenants := (Prod.mk.inj (Prod.mk.inj (Sum.inl.inj heq)).2).1
    rw [htenant, htenants] at hhidden
    simp [visible_to] at hhidden

/-- The dependencies shown keep to the assets of a dependency being shown. -/
theorem restrict_with_assets {assets : Assets}
    (h : ∀ dependency ∈ db.asset_dependencies.rows,
      ({ db with assets } : Metadata).dependency_visible A dependency =
        db.dependency_visible A dependency) :
    ({ db with assets } : Metadata).restrict A =
      { db.restrict A with assets := assets.filter fun asset => visible_to A asset.tenant_id } := by
  rw [restrict, restrict, Table.filter_congr h]

theorem asset_visible_of_insert {row : AssetModel} {assets : Assets} {id : Uuid}
    (hins : db.assets.insert? row = some assets) (hne : id ≠ row.id) :
    ({ db with assets } : Metadata).asset_visible A id = db.asset_visible A id := by
  rw [Bool.eq_iff_iff, asset_visible_iff, asset_visible_iff]
  constructor
  · intro ⟨asset, hasset, hto, hid⟩
    rcases (Table.mem_of_insert? hins).mp hasset with rfl | hasset
    · exact absurd hid.symm hne
    · exact ⟨asset, hasset, hto, hid⟩
  · exact Table.exists_of_insert? hins

theorem asset_visible_of_update {p : AssetModel → Bool} {columns : AssetModel} {assets : Assets}
    {id : Uuid} (hupd : db.assets.update? p (·.updated_to columns) (fun _ => rfl) = some assets) :
    ({ db with assets } : Metadata).asset_visible A id = db.asset_visible A id := by
  rw [Bool.eq_iff_iff, asset_visible_iff, asset_visible_iff]
  constructor
  · intro ⟨asset, hasset, hto, hid⟩
    obtain ⟨r, hr, rfl⟩ := Table.mem_of_update? hupd hasset
    refine ⟨r, hr, ?_⟩
    split at hto <;> split at hid <;> exact ⟨hto, hid⟩
  · exact Table.exists_of_update? hupd fun _ h => h

theorem asset_visible_of_delete {id id' : Uuid} (hne : id' ≠ id) :
    ({ db with assets := db.assets.delete fun r => r.id = id } : Metadata).asset_visible A id' =
      db.asset_visible A id' := by
  rw [Bool.eq_iff_iff, asset_visible_iff, asset_visible_iff]
  constructor
  · intro ⟨asset, hasset, hto, hid⟩
    exact ⟨asset, (Table.mem_delete.mp hasset).1, hto, hid⟩
  · intro ⟨asset, hasset, hto, hid⟩
    refine ⟨asset, Table.mem_delete.mpr ⟨hasset, decide_eq_false ?_⟩, hto, hid⟩
    rw [hid]
    exact hne

/-! ### The calls of the tenant -/

theorem create_asset_restrict (hinv : Inv A db) {asset : AssetModel}
    (hfresh : db.assets.find? asset.id = none) :
    (db.restrict A).create_asset A asset = (db.create_asset A asset).map (restrict A) := by
  unfold create_asset
  refine bind_eq_map_bind_same fun row hrow => ?_
  obtain ⟨hid, htenant⟩ := AssetModel.new_row_eq_ok hrow
  have hinsert : insert_row (db.restrict A).assets "assets_pkey" "assets_name_tenant_id_key" row =
      (insert_row db.assets "assets_pkey" "assets_name_tenant_id_key" row).map
        (·.filter fun asset => visible_to A asset.tenant_id) :=
    insert_row_filter (by simp [htenant, visible_to]) (by rw [hid]; exact hfresh)
      fun r _ hhidden => asset_key_ne htenant hhidden
  refine bind_eq_map_bind hinsert fun assets hins => ?_
  have hins := insert_row_eq_ok hins
  have hne : ∀ id, (∃ asset ∈ db.assets.rows, asset.id = id) → id ≠ row.id := by
    rintro id ⟨asset', hasset', rfl⟩
    rw [hid]
    exact Table.find?_eq_none_iff.mp hfresh asset' hasset'
  refine congrArg Except.ok (restrict_with_assets fun d hd => ?_).symm
  rw [dependency_visible, asset_visible_of_insert hins (hne _ (hinv.upstream d hd)),
    asset_visible_of_insert hins (hne _ (hinv.downstream d hd)), dependency_visible]

/-- The row that an update of the tenant finds is one of its own. -/
theorem owner_of_shown {ρ υ : Type} {key : ρ → Uuid} {uniq : ρ → υ} {t : Table key uniq}
    (owner : ρ → Option TenantId) {id : Uuid} {row : ρ} (howner : ∀ r ∈ t.rows, owner r ≠ none)
    (hfound : t.find? id = some row) (hshown : visible_to A (owner row) = true) :
    owner row = some A :=
  (visible_to_iff (howner row (Table.mem_of_find? hfound))).mp hshown

theorem update_asset_restrict (hinv : Inv A db) (asset : AssetModel) :
    (db.restrict A).update_asset A asset = (db.update_asset A asset).map (restrict A) := by
  unfold update_asset
  refine bind_eq_map_bind_same fun columns hcolumns => ?_
  refine bind_eq_map_bind (update_row_filter (fun r => rfl) ?_) fun assets hupd => ?_
  · intro row hfound hshown _ r _ hhidden
    have hown := owner_of_shown AssetModel.tenant_id hinv.asset_tenant hfound hshown
    exact asset_key_ne hown hhidden
  · obtain ⟨row, -, -, hupd⟩ := update_row_eq_ok hupd
    refine congrArg Except.ok (restrict_with_assets fun d _ => ?_).symm
    rw [dependency_visible, asset_visible_of_update hupd, asset_visible_of_update hupd,
      dependency_visible]

theorem delete_asset_restrict (id : Uuid) :
    (db.restrict A).delete_asset A id = (db.delete_asset A id).map (restrict A) := by
  unfold delete_asset
  refine bind_eq_map_bind delete_row_filter fun assets hdel => ?_
  obtain ⟨row, -, -, rfl⟩ := delete_row_eq_ok hdel
  have hvisible : ∀ d ∈ (db.asset_dependencies.delete (·.touches id)).rows,
      ({ db with assets := db.assets.delete fun r => r.id = id } : Metadata).dependency_visible
        A d = db.dependency_visible A d := by
    intro d hd
    obtain ⟨hup, hdown⟩ := touches_eq_false (Table.mem_delete.mp hd).2
    rw [dependency_visible, asset_visible_of_delete hup, asset_visible_of_delete hdown,
      dependency_visible]
  have hdependencies := (Table.filter_congr hvisible).trans (Table.filter_delete _ _ _)
  have hchecks := Table.filter_delete db.asset_checks (fun check => check.asset_id = id)
    fun check => visible_to A check.tenant_id
  refine congrArg Except.ok ?_
  rw [restrict, restrict]
  congr 1
  · exact hdependencies.symm
  · exact hchecks.symm

theorem create_workflow_restrict {workflow : WorkflowModel}
    (hfresh : db.workflows.find? workflow.id = none) :
    (db.restrict A).create_workflow A workflow =
      (db.create_workflow A workflow).map (restrict A) := by
  unfold create_workflow
  refine bind_eq_map_bind_same fun row hrow => ?_
  obtain ⟨hid, htenant⟩ := WorkflowModel.new_row_eq_ok hrow
  refine bind_eq_map_bind (insert_row_filter (by simp [htenant, visible_to])
    (by rw [hid]; exact hfresh) ?_) fun workflows _ => rfl
  exact fun r _ hhidden => workflow_key_ne htenant hhidden

theorem update_workflow_restrict (hinv : Inv A db) (workflow : WorkflowModel) :
    (db.restrict A).update_workflow A workflow =
      (db.update_workflow A workflow).map (restrict A) := by
  unfold update_workflow
  refine bind_eq_map_bind_same fun columns hcolumns => ?_
  refine bind_eq_map_bind (update_row_filter (fun r => rfl) ?_) fun workflows _ => rfl
  intro row hfound hshown _ r _ hhidden
  have hown := owner_of_shown WorkflowModel.tenant_id hinv.workflow_tenant hfound hshown
  exact workflow_key_ne hown hhidden

theorem delete_workflow_restrict (id : Uuid) :
    (db.restrict A).delete_workflow A id = (db.delete_workflow A id).map (restrict A) := by
  unfold delete_workflow
  refine bind_eq_map_bind delete_row_filter fun workflows hdel => ?_
  have hexecutions := Table.filter_delete db.executions
    (fun execution => execution.workflow_id = id) fun execution => execution.visible_to A
  refine congrArg Except.ok ?_
  rw [restrict, restrict]
  congr 1
  exact hexecutions.symm

/-- A foreign key that is not another tenant's is missing or not, either way. -/
theorem workflow_missing_restrict {workflow_id : Uuid}
    (hown : ∀ workflow, db.workflows.find? workflow_id = some workflow →
      workflow.tenant_id = some A) :
    (db.restrict A).workflow_missing workflow_id = db.workflow_missing workflow_id := by
  unfold workflow_missing restrict
  dsimp only
  rw [Table.find?_filter]
  cases hfound : db.workflows.find? workflow_id with
  | none => rfl
  | some workflow => rw [Option.filter_some_pos (by simp [hown workflow hfound, visible_to])]

theorem asset_missing_restrict {asset_id : Uuid}
    (hown : ∀ asset, db.assets.find? asset_id = some asset → asset.tenant_id = some A) :
    (db.restrict A).asset_missing asset_id = db.asset_missing asset_id := by
  unfold asset_missing restrict
  dsimp only
  rw [Table.find?_filter]
  cases hfound : db.assets.find? asset_id with
  | none => rfl
  | some asset => rw [Option.filter_some_pos (by simp [hown asset hfound, visible_to])]

theorem create_execution_restrict {state : String} {execution : ExecutionModel}
    (hfresh : db.executions.find? execution.id = none)
    (hown : own_workflow A db state execution) :
    (db.restrict A).create_execution A state execution =
      (db.create_execution A state execution).map (restrict A) := by
  unfold create_execution
  refine bind_eq_map_bind_same fun s hs => ?_
  refine bind_eq_map_bind_same fun column hcolumn => ?_
  obtain rfl := tenant_column_eq_ok hcolumn
  have hinsert := Executions.create_execution_filter (A := column)
    { execution with state := s } hfresh
  refine bind_eq_map_bind hinsert fun executions hcreate => ?_
  have hcheck := Executions.check_violation_of_create hcreate
  rw [workflow_missing_restrict (hown (isOk_of_eq_ok hs) (isOk_of_eq_ok hcolumn) hcheck)]
  exact bind_eq_map_bind_same fun _ _ => rfl

theorem create_execution_or_get_existing_restrict {state : String} {execution : ExecutionModel}
    (hfresh : db.executions.find? execution.id = none)
    (hown : own_workflow A db state execution) :
    (db.restrict A).create_execution_or_get_existing A state execution =
      (db.create_execution_or_get_existing A state execution).map fun outcome =>
        (outcome.1.restrict A, outcome.2) := by
  unfold create_execution_or_get_existing
  refine bind_eq_map_bind_same fun s hs => ?_
  refine bind_eq_map_bind_same fun column hcolumn => ?_
  obtain rfl := tenant_column_eq_ok hcolumn
  have hinsert := Executions.create_execution_or_get_existing_filter (A := column)
    { execution with state := s } hfresh
  refine bind_eq_map_bind hinsert fun outcome hcreate => ?_
  obtain ⟨executions, id, was_created⟩ := outcome
  cases was_created with
  | false => rfl
  | true =>
    have hcheck := Executions.check_violation_of_created hcreate
    have hmissing :=
      workflow_missing_restrict (hown (isOk_of_eq_ok hs) (isOk_of_eq_ok hcolumn) hcheck)
    simp only [if_true, hmissing]
    exact bind_eq_map_bind_same fun _ _ => rfl

theorem get_execution_restrict (id : Uuid) :
    (db.restrict A).get_execution A id = db.get_execution A id := by
  unfold get_execution Executions.get_execution restrict
  dsimp only
  rw [Table.find?_filter, Option.filter_filter]
  simp only [Bool.and_self]

theorem update_execution_restrict (state : String) (execution : ExecutionModel) :
    (db.restrict A).update_execution A state execution =
      (db.update_execution A state execution).map (restrict A) := by
  unfold update_execution
  refine bind_eq_map_bind_same fun s _ => ?_
  refine bind_eq_map_bind (g := (·.filter fun execution => execution.visible_to A)) ?_
    fun _ _ => rfl
  unfold Executions.update_execution restrict
  dsimp only
  rw [Table.find?_filter, Option.filter_filter]
  simp only [Bool.and_self]
  cases (db.executions.find? execution.id).filter fun row => row.visible_to A with
  | none => rfl
  | some row =>
    dsimp only
    split
    · rfl
    · have hmodify := Table.filter_modify (t := db.executions) (q := fun row => row.visible_to A)
        (p := fun row => row.id = execution.id) (f := (·.updatedTo { execution with state := s }))
        (fun _ => ⟨rfl, rfl⟩) fun _ => rfl
      exact congrArg Except.ok hmodify

theorem delete_execution_restrict (id : Uuid) :
    (db.restrict A).delete_execution A id = (db.delete_execution A id).map (restrict A) := by
  unfold delete_execution
  exact bind_eq_map_bind delete_row_filter fun _ _ => rfl

theorem create_asset_dependency_restrict {id : Uuid} {now : DateTime}
    {upstream_asset_id downstream_asset_id : Uuid} {dependency_type : String}
    (hfresh : db.asset_dependencies.find? id = none) :
    (db.restrict A).create_asset_dependency A id now upstream_asset_id downstream_asset_id
        dependency_type =
      (db.create_asset_dependency A id now upstream_asset_id downstream_asset_id
        dependency_type).map fun outcome => (outcome.1.restrict A, outcome.2) := by
  unfold create_asset_dependency
  rw [dependency_visible_restrict]
  refine bind_eq_map_bind_same fun _ _ => ?_
  refine bind_eq_map_bind_same fun _ _ => ?_
  refine bind_eq_map_bind_same fun u hvisible => ?_
  have hvisible := require_eq_ok hvisible
  split at hvisible
  · next hshown =>
    -- a dependency with the same key is one between the same assets
    refine bind_eq_map_bind (insert_row_filter hshown hfresh fun r _ hhidden heq => ?_)
      fun _ _ => rfl
    obtain ⟨hup, hrest⟩ := Prod.mk.inj heq
    obtain ⟨hdown, -⟩ := Prod.mk.inj hrest
    rw [dependency_visible, hup, hdown] at hhidden
    rw [dependency_visible] at hshown
    rw [hhidden] at hshown
    cases hshown
  · cases hvisible

theorem delete_asset_dependency_restrict (id : Uuid) :
    (db.restrict A).delete_asset_dependency A id =
      (db.delete_asset_dependency A id).map (restrict A) := by
  unfold delete_asset_dependency
  rw [dependency_visible_restrict]
  exact bind_eq_map_bind delete_row_filter fun _ _ => rfl

theorem delete_asset_dependencies_for_asset_restrict (asset_id : Uuid) :
    (db.restrict A).delete_asset_dependencies_for_asset A asset_id =
      ((db.delete_asset_dependencies_for_asset A asset_id).1.restrict A,
        (db.delete_asset_dependencies_for_asset A asset_id).2) := by
  unfold delete_asset_dependencies_for_asset
  rw [dependency_visible_restrict, visible_dependencies_restrict]
  have hdependencies := Table.filter_delete db.asset_dependencies (fun dependency =>
    db.dependency_visible A dependency && dependency.touches asset_id) (db.dependency_visible A)
  refine Prod.ext ?_ rfl
  dsimp only
  rw [restrict, restrict]
  congr 1
  exact hdependencies.symm

theorem get_asset_dependencies_restrict :
    (db.restrict A).get_asset_dependencies A = db.get_asset_dependencies A := by
  funext asset_id
  simp only [get_asset_dependencies, get_upstream_dependencies, get_downstream_dependencies,
    visible_dependencies_restrict]

theorem create_asset_check_restrict {check : AssetCheckModel}
    (hfresh : db.asset_checks.find? check.id = none)
    (hown : own_references A db (.create_asset_check check)) :
    (db.restrict A).create_asset_check A check =
      (db.create_asset_check A check).map (restrict A) := by
  unfold create_asset_check
  refine bind_eq_map_bind_same fun row hrow => ?_
  obtain ⟨hid, -, htenant⟩ := AssetCheckModel.new_row_eq_ok hrow
  obtain ⟨hasset, hkey⟩ := hown row hrow
  refine bind_eq_map_bind (insert_row_filter (by simp [htenant, visible_to])
    (by rw [hid]; exact hfresh) ?_) fun asset_checks _ => ?_
  · intro r hr hhidden heq
    simp [hkey r hr heq, visible_to] at hhidden
  · rw [asset_missing_restrict hasset]
    exact bind_eq_map_bind_same fun _ _ => rfl

theorem update_asset_check_restrict (hinv : Inv A db) {check : AssetCheckModel}
    (hown : own_references A db (.update_asset_check check)) :
    (db.restrict A).update_asset_check A check =
      (db.update_asset_check A check).map (restrict A) := by
  unfold update_asset_check
  refine bind_eq_map_bind_same fun columns hcolumns => ?_
  refine bind_eq_map_bind (update_row_filter (fun r => rfl) ?_) fun _ _ => rfl
  intro row hfound hshown _ r hr hhidden heq
  have howner := owner_of_shown AssetCheckModel.tenant_id hinv.check_tenant hfound hshown
  have hkey := hown columns hcolumns row hfound howner
  simp [hkey r hr heq, visible_to] at hhidden

theorem delete_asset_check_restrict (id : Uuid) :
    (db.restrict A).delete_asset_check A id = (db.delete_asset_check A id).map (restrict A) := by
  unfold delete_asset_check
  exact bind_eq_map_bind delete_row_filter fun _ _ => rfl

/-- The restriction of what an operation does. -/
def restrict_outcome (A : TenantId) (outcome : Metadata × MetadataReply) :
    Metadata × MetadataReply := (outcome.1.restrict A, outcome.2)

theorem done_restrict {x x' : Except StorageError Metadata} (h : x' = x.map (restrict A)) :
    done x' = (done x).map (restrict_outcome A) := by
  subst h
  cases x <;> rfl

theorem read_restrict {α : Type} {x x' : Except StorageError α} {f : α → MetadataReply}
    (h : x' = x) :
    x'.map (fun a => (db.restrict A, f a)) =
      (x.map fun a => (db, f a)).map (restrict_outcome A) := by
  subst h
  cases x' <;> rfl

/-- **Own calls.** -/
theorem perform_restrict (hinv : Inv A db) {op : MetadataOp} (hfresh : db.fresh op = true)
    (hown : own_references A db op) :
    (db.restrict A).perform A op = (db.perform A op).map (restrict_outcome A) := by
  cases op with
  | create_asset asset =>
    exact done_restrict (create_asset_restrict hinv (Option.isNone_iff_eq_none.mp hfresh))
  | update_asset asset => exact done_restrict (update_asset_restrict hinv asset)
  | delete_asset id => exact done_restrict (delete_asset_restrict id)
  | create_workflow workflow =>
    exact done_restrict (create_workflow_restrict (Option.isNone_iff_eq_none.mp hfresh))
  | update_workflow workflow => exact done_restrict (update_workflow_restrict hinv workflow)
  | delete_workflow id => exact done_restrict (delete_workflow_restrict id)
  | create_execution state execution =>
    exact done_restrict (create_execution_restrict (Option.isNone_iff_eq_none.mp hfresh) hown)
  | create_execution_or_get_existing state execution =>
    simp only [perform, create_execution_or_get_existing_restrict
      (Option.isNone_iff_eq_none.mp hfresh) hown]
    cases db.create_execution_or_get_existing A state execution <;> rfl
  | get_execution id => exact read_restrict (get_execution_restrict id)
  | update_execution state execution =>
    exact done_restrict (update_execution_restrict state execution)
  | delete_execution id => exact done_restrict (delete_execution_restrict id)
  | create_asset_dependency id now upstream_asset_id downstream_asset_id dependency_type =>
    simp only [perform, create_asset_dependency_restrict (Option.isNone_iff_eq_none.mp hfresh)]
    cases db.create_asset_dependency A id now upstream_asset_id downstream_asset_id
      dependency_type <;> rfl
  | delete_asset_dependency id => exact done_restrict (delete_asset_dependency_restrict id)
  | delete_asset_dependencies_for_asset asset_id =>
    simp only [perform, delete_asset_dependencies_for_asset_restrict]
    rfl
  | create_asset_check check =>
    exact done_restrict (create_asset_check_restrict (Option.isNone_iff_eq_none.mp hfresh) hown)
  | update_asset_check check => exact done_restrict (update_asset_check_restrict hinv hown)
  | delete_asset_check id => exact done_restrict (delete_asset_check_restrict id)
  | get_asset id => exact read_restrict (by simp only [get_asset, visible_assets_restrict])
  | get_asset_partition_config asset_id =>
    exact read_restrict (by
      simp only [get_asset_partition_config, get_asset, visible_assets_restrict])
  | list_assets limit offset =>
    exact read_restrict (by simp only [list_assets, visible_assets_restrict])
  | get_asset_by_name name =>
    exact read_restrict (by simp only [get_asset_by_name, visible_assets_restrict])
  | get_workflow id => exact read_restrict (by simp only [get_workflow, visible_workflows_restrict])
  | list_workflows limit offset =>
    exact read_restrict (by simp only [list_workflows, visible_workflows_restrict])
  | list_executions limit offset =>
    exact read_restrict (by simp only [list_executions, visible_executions_restrict])
  | list_workflow_executions workflow_id limit offset =>
    exact read_restrict (by simp only [list_workflow_executions, visible_executions_restrict])
  | get_asset_check id =>
    exact read_restrict (by simp only [get_asset_check, visible_asset_checks_restrict])
  | _ =>
    -- queries that cannot fail
    simp only [perform, get_workflow_assets, count_assets, count_workflows,
      find_execution_by_idempotency_key, count_executions, get_upstream_dependencies,
      get_downstream_dependencies, get_asset_dependencies_restrict, get_asset_lineage,
      list_asset_checks, visible_assets_restrict, visible_workflows_restrict,
      visible_executions_restrict, visible_dependencies_restrict, visible_asset_checks_restrict]
    rfl

theorem exec_restrict (hinv : Inv A db) {op : MetadataOp} (hfresh : db.fresh op = true)
    (hown : own_references A db op) :
    exec (db.restrict A) (A, op) = ((exec db (A, op)).1.restrict A, (exec db (A, op)).2) := by
  unfold exec
  rw [perform_restrict hinv hfresh hown]
  cases db.perform A op <;> rfl

/-! ### References to other tenants are noticed -/

/-- A foreign key of the restriction is to a row of the tenant. -/
theorem workflow_of_restrict (hinv : Inv A db) {workflow_id : Uuid}
    (h : (db.restrict A).workflow_missing workflow_id = none) :
    ∃ workflow, db.workflows.find? workflow_id = some workflow ∧ workflow.tenant_id = some A := by
  obtain ⟨workflow, hfound⟩ := find?_of_workflow_missing h
  obtain ⟨hfound, hshown⟩ := Option.filter_eq_some_iff.mp
    ((Table.find?_filter db.workflows _ workflow_id).symm.trans hfound)
  exact ⟨workflow, hfound,
    owner_of_shown WorkflowModel.tenant_id hinv.workflow_tenant hfound hshown⟩

/-- The workflow of an execution of the tenant is the tenant's. -/
theorem own_workflow_of_execution (hinv : Inv A db) {r : ExecutionModel}
    (hr : r ∈ db.executions.rows) (howner : r.tenant_id = some A) {workflow_id : Uuid}
    {workflow : WorkflowModel} (hworkflow : db.workflows.find? workflow_id = some workflow)
    (hid : r.workflow_id = workflow_id) : workflow.tenant_id = some A := by
  obtain ⟨own, hmem, hown_id, hown⟩ := hinv.own_workflow r hr howner
  have hsame := Table.eq_of_key_eq hmem (Table.mem_of_find? hworkflow)
    (hown_id.trans (hid.trans (Table.key_of_find? hworkflow).symm))
  rw [← hsame]
  exact hown

/-- An execution of the tenant with the key of a new one is one of the same workflow, which is
    the tenant's. -/
theorem own_workflow_of_conflict (hinv : Inv A db) (execution : ExecutionModel)
    {r : ExecutionModel} (hr : r ∈ db.executions.rows) (hid : r.id ≠ execution.id)
    (huniq : r.unique_key = { execution with tenant_id := some A }.unique_key)
    {workflow : WorkflowModel}
    (hworkflow : db.workflows.find? execution.workflow_id = some workflow) :
    workflow.tenant_id = some A := by
  unfold ExecutionModel.unique_key at huniq
  cases htenant : r.tenant_id with
  | none => exact absurd htenant (hinv.execution_tenant r hr)
  | some tenant_id =>
    rw [htenant] at huniq
    cases hkey : r.idempotency_key with
    | none =>
      rw [hkey] at huniq
      cases hkey' : execution.idempotency_key with
      | none =>
        simp only [hkey', Sum.inr.injEq] at huniq
        exact absurd huniq hid
      | some key => simp [hkey'] at huniq
    | some key =>
      rw [hkey] at huniq
      cases hkey' : execution.idempotency_key with
      | none => simp [hkey'] at huniq
      | some key' =>
        simp only [hkey', Sum.inl.injEq, Prod.mk.injEq] at huniq
        obtain ⟨htenants, hworkflow_id, -⟩ := huniq
        exact own_workflow_of_execution hinv hr (htenants ▸ htenant) hworkflow hworkflow_id

/-- A new execution of another tenant's workflow is inserted. -/
theorem insert?_of_foreign (hinv : Inv A db) (execution : ExecutionModel)
    (hfresh : db.executions.find? execution.id = none) {workflow : WorkflowModel}
    (hworkflow : db.workflows.find? execution.workflow_id = some workflow)
    (hforeign : workflow.tenant_id ≠ some A) :
    ∃ executions, db.executions.insert? { execution with tenant_id := some A } =
      some executions := by
  cases hins : db.executions.insert? { execution with tenant_id := some A } with
  | some executions => exact ⟨executions, rfl⟩
  | none =>
    obtain ⟨r, hr, hor⟩ := Table.insert?_eq_none_iff.mp hins
    have hid : r.id ≠ execution.id := Table.find?_eq_none_iff.mp hfresh r hr
    rcases hor with hkey | huniq
    · exact absurd hkey hid
    · exact absurd (own_workflow_of_conflict hinv execution hr hid huniq hworkflow) hforeign

theorem exists_of_isOk {ε α : Type} {x : Except ε α} (h : x.isOk = true) : ∃ a, x = .ok a := by
  cases x with
  | error e => cases h
  | ok a => exact ⟨a, rfl⟩

/-- What a new execution of another tenant's workflow has passed. -/
theorem foreign_workflow {state : String} {execution : ExecutionModel}
    (h : ¬ own_workflow A db state execution) :
    ∃ s, validate_execution_state state = .ok s ∧ tenant_column "executions" A = .ok A ∧
      execution.check_violation = none ∧ ∃ workflow,
        db.workflows.find? execution.workflow_id = some workflow ∧
          workflow.tenant_id ≠ some A := by
  unfold own_workflow at h
  push Not at h
  obtain ⟨hs, hcolumn, hcheck, workflow, hworkflow, hne⟩ := h
  obtain ⟨s, hs⟩ := exists_of_isOk hs
  obtain ⟨column, hcolumn⟩ := exists_of_isOk hcolumn
  obtain rfl := tenant_column_eq_ok hcolumn
  exact ⟨s, hs, hcolumn, hcheck, workflow, hworkflow, hne⟩

/-- It is created in the tables, and it is not in the restriction. -/
theorem create_execution_foreign (hinv : Inv A db) {state : String} {execution : ExecutionModel}
    (hfresh : db.executions.find? execution.id = none)
    (hforeign : ¬ own_workflow A db state execution) :
    (∃ db', db.create_execution A state execution = .ok db') ∧
      ∀ db', (db.restrict A).create_execution A state execution ≠ .ok db' := by
  obtain ⟨s, hs, hcolumn, hcheck, workflow, hworkflow, hne⟩ := foreign_workflow hforeign
  constructor
  · obtain ⟨executions, hins⟩ := insert?_of_foreign hinv { execution with state := s } hfresh
      hworkflow hne
    have hcreate : db.executions.create_execution { execution with state := s } A =
        .ok executions := by
      have hnone : ({ execution with state := s, tenant_id := some A } :
          ExecutionModel).check_violation = none := hcheck
      simp only [Executions.create_execution, hnone, hins]
    have hmissing : db.workflow_missing execution.workflow_id = none := by
      simp [workflow_missing, hworkflow]
    refine ⟨{ db with executions }, ?_⟩
    unfold create_execution
    refine bind_eq_ok_iff.mpr ⟨s, hs, bind_eq_ok_iff.mpr ⟨A, hcolumn, bind_eq_ok_iff.mpr
      ⟨executions, hcreate, bind_eq_ok_iff.mpr ⟨(), ?_, rfl⟩⟩⟩⟩
    rw [hmissing]
    rfl
  · intro db' hok
    obtain ⟨s', -, column, -, executions, -, u, hmissing, -⟩ := by
      simpa only [create_execution, bind_eq_ok_iff] using hok
    obtain ⟨own, hfound, hown⟩ := workflow_of_restrict hinv (require_eq_ok hmissing)
    rw [hworkflow] at hfound
    cases hfound
    exact hne hown

theorem create_execution_or_get_existing_foreign (hinv : Inv A db) {state : String}
    {execution : ExecutionModel} (hfresh : db.executions.find? execution.id = none)
    (hforeign : ¬ own_workflow A db state execution) :
    (∃ outcome, db.create_execution_or_get_existing A state execution = .ok outcome) ∧
      ∀ outcome, (db.restrict A).create_execution_or_get_existing A state execution ≠
        .ok outcome := by
  obtain ⟨s, hs, hcolumn, hcheck, workflow, hworkflow, hne⟩ := foreign_workflow hforeign
  constructor
  · obtain ⟨executions, hins⟩ := insert?_of_foreign hinv { execution with state := s } hfresh
      hworkflow hne
    -- no execution of the tenant has the key
    have hconflict : db.executions.rows.any (fun r => r.unique_key =
        { execution with state := s, tenant_id := some A }.unique_key) = false := by
      rw [List.any_eq_false]
      intro r hr huniq
      have hid : r.id ≠ execution.id := Table.find?_eq_none_iff.mp hfresh r hr
      exact hne (own_workflow_of_conflict hinv { execution with state := s } hr hid
        (of_decide_eq_true huniq) hworkflow)
    have hcreate : db.executions.create_execution_or_get_existing { execution with state := s } A =
        .ok (executions, execution.id, true) := by
      have hnone : ({ execution with state := s, tenant_id := some A } :
          ExecutionModel).check_violation = none := hcheck
      simp only [Executions.create_execution_or_get_existing, hnone, hconflict, Bool.and_false,
        Bool.false_eq_true, if_false, hins]
    have hmissing : db.workflow_missing execution.workflow_id = none := by
      simp [workflow_missing, hworkflow]
    refine ⟨({ db with executions }, execution.id, true), ?_⟩
    unfold create_execution_or_get_existing
    refine bind_eq_ok_iff.mpr ⟨s, hs, bind_eq_ok_iff.mpr ⟨A, hcolumn, bind_eq_ok_iff.mpr
      ⟨_, hcreate, bind_eq_ok_iff.mpr ⟨(), ?_, rfl⟩⟩⟩⟩
    rw [if_pos rfl, hmissing]
    rfl
  · intro res hok
    obtain ⟨db', id, created⟩ := res
    obtain ⟨s', -, column, hcolumn', ⟨executions, id', was_created⟩, hcreate, u, hmissing, -⟩ := by
      simpa only [create_execution_or_get_existing, bind_eq_ok_iff] using hok
    obtain rfl := tenant_column_eq_ok hcolumn'
    cases was_created with
    | true =>
      obtain ⟨own, hfound, hown⟩ := workflow_of_restrict hinv (require_eq_ok hmissing)
      rw [hworkflow] at hfound
      cases hfound
      exact hne hown
    | false =>
      obtain ⟨existing, hfound, hshown, hworkflow_id, -, -⟩ :=
        Executions.existing_execution_eq_ok hcreate
      obtain ⟨hfound, -⟩ := Option.filter_eq_some_iff.mp
        ((Table.find?_filter db.executions _ id').symm.trans hfound)
      have hmem := Table.mem_of_find? hfound
      have howner := (visible_to_iff (hinv.execution_tenant existing hmem)).mp hshown
      exact hne (own_workflow_of_execution hinv hmem howner hworkflow hworkflow_id)

/-! ### What the creation and the update of a check return -/

section check_replies
variable {check row columns : AssetCheckModel} {asset_checks : AssetChecks}

theorem create_asset_check_conflict (hrow : check.new_row A = .ok row)
    (hins : db.asset_checks.insert? row = none) :
    ∃ constraint, (exec db (A, .create_asset_check check)).2 =
      .error (unique_violation constraint) := by
  refine ⟨if db.asset_checks.rows.any (fun r => r.id = row.id) then "asset_checks_pkey"
    else "asset_checks_asset_id_name_key", ?_⟩
  simp only [exec, perform, create_asset_check, hrow, insert_row, hins, ok_bind, error_bind]
  rfl

theorem create_asset_check_missing (hrow : check.new_row A = .ok row)
    (hins : db.asset_checks.insert? row = some asset_checks)
    (hmissing : db.asset_missing row.asset_id ≠ none) :
    (exec db (A, .create_asset_check check)).2 =
      .error (foreign_key_violation "asset_checks" "asset_checks_asset_id_fkey") := by
  have hviolation : db.asset_missing row.asset_id =
      some (foreign_key_violation "asset_checks" "asset_checks_asset_id_fkey") := by
    unfold asset_missing at hmissing ⊢
    split at hmissing
    · exact absurd rfl hmissing
    · next hnone => exact if_neg hnone
  simp only [exec, perform, create_asset_check, hrow, insert_row, hins, hviolation, require,
    ok_bind, error_bind]
  rfl

theorem create_asset_check_done (hrow : check.new_row A = .ok row)
    (hins : db.asset_checks.insert? row = some asset_checks)
    (hmissing : db.asset_missing row.asset_id = none) :
    (exec db (A, .create_asset_check check)).2 = .ok .done := by
  simp only [exec, perform, create_asset_check, hrow, insert_row, hins, hmissing, require, ok_bind]
  rfl

theorem update_asset_check_conflict (hcolumns : check.validated = .ok columns)
    (hfound : (db.asset_checks.find? columns.id).filter (fun r => visible_to A r.tenant_id) =
      some row)
    (hupd : db.asset_checks.update? (fun r => r.id = columns.id) (·.updated_to columns)
      (fun _ => rfl) = none) :
    (exec db (A, .update_asset_check check)).2 =
      .error (unique_violation "asset_checks_asset_id_name_key") := by
  simp only [exec, perform, update_asset_check, hcolumns, update_row, hfound, hupd, ok_bind,
    error_bind]
  rfl

theorem update_asset_check_done (hcolumns : check.validated = .ok columns)
    (hfound : (db.asset_checks.find? columns.id).filter (fun r => visible_to A r.tenant_id) =
      some row)
    (hupd : db.asset_checks.update? (fun r => r.id = columns.id) (·.updated_to columns)
      (fun _ => rfl) = some asset_checks) :
    (exec db (A, .update_asset_check check)).2 = .ok .done := by
  simp only [exec, perform, update_asset_check, hcolumns, update_row, hfound, hupd, ok_bind]
  rfl

end check_replies

/-- A check with another tenant's asset or key. -/
theorem create_asset_check_foreign (hinv : Inv A db) {check : AssetCheckModel}
    (hfresh : db.asset_checks.find? check.id = none)
    (hforeign : ¬ own_references A db (.create_asset_check check)) :
    (exec (db.restrict A) (A, .create_asset_check check)).2 ≠
      (exec db (A, .create_asset_check check)).2 := by
  unfold own_references at hforeign
  push Not at hforeign
  obtain ⟨row, hrow, hforeign⟩ := hforeign
  obtain ⟨hid, -, htenant⟩ := AssetCheckModel.new_row_eq_ok hrow
  have hkey : ∀ r ∈ db.asset_checks.rows, r.id ≠ row.id := by
    rw [hid]
    exact Table.find?_eq_none_iff.mp hfresh
  by_cases hasset : ∀ asset, db.assets.find? row.asset_id = some asset → asset.tenant_id = some A
  · -- the key is another tenant's, which the restriction does not show
    have hheld := hforeign hasset
    unfold own_check_key at hheld
    push Not at hheld
    obtain ⟨other, hother, huniq, hne⟩ := hheld
    have hnone : db.asset_checks.insert? row = none :=
      Table.insert?_eq_none_iff.mpr ⟨other, hother, Or.inr huniq⟩
    obtain ⟨constraint, hconflict⟩ := create_asset_check_conflict hrow hnone
    rw [hconflict]
    cases hins : (db.restrict A).asset_checks.insert? row with
    | none =>
      obtain ⟨r, hr, hor⟩ := Table.insert?_eq_none_iff.mp hins
      obtain ⟨hr, hshown⟩ := Table.mem_filter.mp hr
      rcases hor with hsame | hsame
      · exact absurd hsame (hkey r hr)
      · rw [Table.eq_of_uniq_eq hr hother (hsame.trans huniq.symm)] at hshown
        exact absurd ((visible_to_iff (hinv.check_tenant other hother)).mp hshown) hne
    | some asset_checks =>
      by_cases hmissing : (db.restrict A).asset_missing row.asset_id = none
      · rw [create_asset_check_done hrow hins hmissing]
        simp
      · rw [create_asset_check_missing hrow hins hmissing]
        simp [unique_violation, foreign_key_violation]
  · -- the asset is another tenant's, which the restriction does not show
    push Not at hasset
    obtain ⟨asset, hfound, hne⟩ := hasset
    have hhidden : (db.restrict A).asset_missing row.asset_id ≠ none := by
      intro hmissing
      obtain ⟨own, hown⟩ := find?_of_asset_missing hmissing
      obtain ⟨hown, hshown⟩ := Option.filter_eq_some_iff.mp
        ((Table.find?_filter db.assets _ row.asset_id).symm.trans hown)
      rw [hfound] at hown
      cases hown
      exact hne (owner_of_shown AssetModel.tenant_id hinv.asset_tenant hfound hshown)
    cases hins : (db.restrict A).asset_checks.insert? row with
    | none =>
      -- a check of the tenant with the key is one of an asset of the tenant
      obtain ⟨r, hr, hor⟩ := Table.insert?_eq_none_iff.mp hins
      obtain ⟨hr, hshown⟩ := Table.mem_filter.mp hr
      rcases hor with hsame | hsame
      · exact absurd hsame (hkey r hr)
      · have howner := (visible_to_iff (hinv.check_tenant r hr)).mp hshown
        obtain ⟨own, hmem, hown_id, hown⟩ := hinv.own_asset r hr howner
        have hasset_id : r.asset_id = row.asset_id := (Prod.mk.inj hsame).1
        have hsame' := Table.eq_of_key_eq hmem (Table.mem_of_find? hfound)
          (hown_id.trans (hasset_id.trans (Table.key_of_find? hfound).symm))
        rw [hsame'] at hown
        exact absurd hown hne
    | some asset_checks =>
      rw [create_asset_check_missing hrow hins hhidden]
      have hmissing : db.asset_missing row.asset_id = none := by simp [asset_missing, hfound]
      cases hfull : db.asset_checks.insert? row with
      | none =>
        obtain ⟨constraint, hconflict⟩ := create_asset_check_conflict hrow hfull
        rw [hconflict]
        simp [unique_violation, foreign_key_violation]
      | some full =>
        rw [create_asset_check_done hrow hfull hmissing]
        simp

/-- A check that is to take another tenant's key. -/
theorem update_asset_check_foreign (hinv : Inv A db) {check : AssetCheckModel}
    (hforeign : ¬ own_references A db (.update_asset_check check)) :
    (exec (db.restrict A) (A, .update_asset_check check)).2 ≠
      (exec db (A, .update_asset_check check)).2 := by
  unfold own_references own_check_key at hforeign
  push Not at hforeign
  obtain ⟨columns, hcolumns, row, hfound, howner, other, hother, huniq, hne⟩ := hforeign
  have hrow := Table.mem_of_find? hfound
  have hid : row.id = columns.id := Table.key_of_find? hfound
  have hshown : visible_to A row.tenant_id = true := by simp [howner, visible_to]
  have hrow_ne : row ≠ other := fun heq => hne (heq ▸ howner)
  have hother_id : other.id ≠ columns.id := fun heq =>
    hrow_ne (Table.eq_of_key_eq hrow hother (hid.trans heq.symm))
  have hrow_shown : (some row).filter (fun r : AssetCheckModel => visible_to A r.tenant_id) =
      some row := Option.filter_eq_some_iff.mpr ⟨rfl, hshown⟩
  -- the tables refuse the key
  have hfull : db.asset_checks.update? (fun r => r.id = columns.id) (·.updated_to columns)
      (fun _ => rfl) = none := by
    refine Table.update?_eq_none_iff.mpr ⟨row, hrow, other, hother, hrow_ne, ?_⟩
    simp [hid, hother_id, huniq]
  rw [update_asset_check_conflict hcolumns (by rw [hfound, hrow_shown]) hfull]
  -- the restriction does not know that it is taken
  cases hupd : (db.restrict A).asset_checks.update? (fun r => r.id = columns.id)
      (·.updated_to columns) (fun _ => rfl) with
  | some asset_checks =>
    have hfound' : ((db.restrict A).asset_checks.find? columns.id).filter
        (fun r => visible_to A r.tenant_id) = some row := by
      rw [restrict]
      dsimp only
      rw [Table.find?_filter, hfound, hrow_shown, hrow_shown]
    rw [update_asset_check_done hcolumns hfound' hupd]
    simp
  | none =>
    have htaken : ∀ r ∈ db.asset_checks.rows, visible_to A r.tenant_id = true →
        r.unique_key ≠ (row.updated_to columns).unique_key := by
      intro r hr hr_shown heq
      rw [Table.eq_of_uniq_eq hr hother (heq.trans huniq.symm)] at hr_shown
      exact hne ((visible_to_iff (hinv.check_tenant other hother)).mp hr_shown)
    have hone : ∀ r ∈ db.asset_checks.rows, r.id = columns.id → r = row := fun r hr heq =>
      Table.eq_of_key_eq hr hrow (heq.trans hid.symm)
    obtain ⟨r, hr, r', hr', hrr', hsame⟩ := Table.update?_eq_none_iff.mp hupd
    obtain ⟨hr, hr_shown⟩ := Table.mem_filter.mp hr
    obtain ⟨hr', hr_shown'⟩ := Table.mem_filter.mp hr'
    simp only [decide_eq_true_eq] at hsame
    exfalso
    split at hsame <;> split at hsame
    · next h h' => exact hrr' ((hone r hr h).trans (hone r' hr' h').symm)
    · next h h' =>
      rw [hone r hr h] at hsame
      exact htaken r' hr' hr_shown' hsame.symm
    · next h h' =>
      rw [hone r' hr' h'] at hsame
      exact htaken r hr hr_shown hsame
    · exact hrr' (Table.eq_of_uniq_eq hr hr' hsame)

/-! ### The results of a tenant -/

/-- A call of tenant `A`. -/
def of_tenant (A : TenantId) (call : Call) : Bool := call.1 = A

theorem perform_differs {op : MetadataOp} {x x' : Except StorageError (Metadata × MetadataReply)}
    (hx : (db.restrict A).perform A op = x) (hx' : db.perform A op = x')
    (hno : ∀ outcome, x ≠ .ok outcome) (hok : ∃ outcome, x' = .ok outcome) :
    (exec (db.restrict A) (A, op)).2 ≠ (exec db (A, op)).2 := by
  obtain ⟨outcome, rfl⟩ := hok
  cases x with
  | ok outcome' => exact absurd rfl (hno outcome')
  | error e =>
    rw [exec, exec, hx, hx']
    simp [commit]

theorem exec_foreign (hinv : Inv A db) {op : MetadataOp} (hfresh : db.fresh op = true)
    (hforeign : ¬ own_references A db op) :
    (exec (db.restrict A) (A, op)).2 ≠ (exec db (A, op)).2 := by
  cases op with
  | create_execution state execution =>
    obtain ⟨⟨db', hok⟩, hno⟩ := create_execution_foreign hinv
      (Option.isNone_iff_eq_none.mp hfresh) hforeign
    refine perform_differs rfl rfl (fun outcome hdone => ?_) ⟨(db', .done), ?_⟩
    · exact hno outcome.1 (done_eq_ok hdone)
    · exact congrArg done hok
  | create_execution_or_get_existing state execution =>
    obtain ⟨⟨outcome, hok⟩, hno⟩ := create_execution_or_get_existing_foreign hinv
      (Option.isNone_iff_eq_none.mp hfresh) hforeign
    refine perform_differs rfl rfl (fun outcome' hdone => ?_)
      ⟨(outcome.1, .created_or_existing outcome.2.1 outcome.2.2), ?_⟩
    · obtain ⟨outcome'', hok', -⟩ := map_eq_ok_iff.mp hdone
      exact hno outcome'' hok'
    · exact map_eq_ok_iff.mpr ⟨outcome, hok, rfl⟩
  | create_asset_check check =>
    exact create_asset_check_foreign hinv (Option.isNone_iff_eq_none.mp hfresh) hforeign
  | update_asset_check check => exact update_asset_check_foreign hinv hforeign
  | _ => exact absurd trivial hforeign

/-- What a call does to the tables. -/
theorem change_of_exec {T : TenantId} {op : MetadataOp}
    (hown : T = A → own_references A db op) : Change A T db (exec db (T, op)).1 := by
  cases hperform : db.perform T op with
  | error e =>
    rw [exec, hperform]
    exact .unchanged
  | ok outcome =>
    rw [exec, hperform]
    exact change_of_perform hown hperform

theorem unwinding (A : TenantId) : Noninterference.Unwinding exec (of_tenant A) (restrict A)
    (Inv A) (fun db call => db.fresh call.2 = true)
    (fun db call => own_references A db call.2) where
  inv := by
    rintro db ⟨T, op⟩ hinv - hown
    exact (change_of_exec fun hT => hown (decide_eq_true hT)).inv hinv
  others := by
    rintro db ⟨T, op⟩ hinv - hother
    have hTA : T ≠ A := of_decide_eq_false hother
    exact (change_of_exec (A := A) fun hT => absurd hT hTA).restrict_eq hTA hinv
  own := by
    intro db ⟨T, op⟩ hinv hfresh hT hown
    obtain rfl : T = A := of_decide_eq_true hT
    exact exec_restrict hinv hfresh hown
  differs := by
    intro db ⟨T, op⟩ hinv hfresh hT hforeign
    obtain rfl : T = A := of_decide_eq_true hT
    exact exec_foreign hinv hfresh hforeign

/-- The results of the calls of `A`, starting from empty tables. -/
def results_of (A : TenantId) (calls : List Call) : List (Except StorageError MetadataReply) :=
  Noninterference.results exec (of_tenant A) Metadata.empty calls

/-- New rows get fresh ids. -/
def FreshIds (calls : List Call) : Prop :=
  Noninterference.AtEach exec (fun db call => db.fresh call.2 = true) Metadata.empty calls

/-- The calls of `A` refer to no row of another tenant. -/
def OwnReferences (A : TenantId) (calls : List Call) : Prop :=
  Noninterference.AtEach exec (fun db call => of_tenant A call = true →
    own_references A db call.2) Metadata.empty calls

/-- A tenant's results are those it has without the calls of others exactly if its calls refer
    to no row of another tenant. -/
theorem isolated_iff (A : TenantId) (calls : List Call) (hfresh : FreshIds calls) :
    results_of A (calls.filter (of_tenant A)) = results_of A calls ↔ OwnReferences A calls :=
  (unwinding A).results_purged_iff calls Metadata.empty (Inv.empty A) hfresh

theorem freshIds_of_test {calls : List Call}
    (h : Noninterference.at_each_test exec (fun db call => db.fresh call.2) Metadata.empty calls =
      true) : FreshIds calls :=
  Noninterference.atEach_of_test (fun _ _ h => h) calls Metadata.empty h

/-! ### Two tenants -/

/-- A workflow with the given id. -/
def plain_workflow (id : Uuid) : WorkflowModel :=
  ⟨id, "daily", none, none, [], none, 1, none, none, none, none, none, none, 0, 0⟩

/-- An asset with the given id. -/
def plain_asset (id : Uuid) : AssetModel :=
  ⟨id, "orders", none, "table", none, [], none, none, none, none, 0, 0⟩

/-- A check of the given asset. -/
def plain_check (id asset_id : Uuid) (name : String) : AssetCheckModel :=
  ⟨id, name, none, asset_id, "\x7b\x7d", "error", true, true, [], none, none, 0, 0⟩

/-- An execution of the given workflow. -/
def plain_execution (id workflow_id : Uuid) : ExecutionModel :=
  ⟨id, workflow_id, .pending, none, none, none, none, none, 0, 0⟩

/-- Both tenants have a workflow and an asset of the same name. Tenant `b` adds a check to the
    asset of `a`, tries to delete it, and deletes its own workflow. -/
def two_tenants : List Call :=
  [("a", .create_workflow (plain_workflow 1)), ("b", .create_workflow (plain_workflow 2)),
   ("a", .create_asset (plain_asset 3)), ("b", .create_asset (plain_asset 4)),
   ("a", .create_execution "pending" (plain_execution 5 1)),
   ("b", .create_asset_check (plain_check 6 3 "fresh")), ("b", .delete_asset 3),
   ("a", .create_asset_check (plain_check 7 3 "complete")), ("b", .delete_workflow 2),
   ("a", .list_executions 10 0), ("a", .list_asset_checks 3 false), ("a", .count_assets)]

theorem two_tenants_isolated :
    results_of "a" (two_tenants.filter (of_tenant "a")) = results_of "a" two_tenants ∧
      OwnReferences "a" two_tenants := by
  have hfresh : FreshIds two_tenants := freshIds_of_test (by decide +kernel)
  have hresults : results_of "a" (two_tenants.filter (of_tenant "a")) =
      results_of "a" two_tenants := by decide +kernel
  exact ⟨hresults, (isolated_iff "a" two_tenants hfresh).mp hresults⟩

/-- Tenant `a` starts an execution of a workflow of tenant `b`. -/
def foreign_execution : List Call :=
  [("b", .create_workflow (plain_workflow 2)),
   ("a", .create_execution "pending" (plain_execution 5 2))]

/-- The workflow's existence is revealed: without it, the call is refused. -/
theorem foreign_workflow_is_revealed :
    ¬ ∀ (A : TenantId) (calls : List Call), FreshIds calls →
      results_of A (calls.filter (of_tenant A)) = results_of A calls := by
  intro hall
  have hfresh : FreshIds foreign_execution := freshIds_of_test (by decide +kernel)
  have hdiffer : results_of "a" (foreign_execution.filter (of_tenant "a")) ≠
      results_of "a" foreign_execution := by decide +kernel
  exact hdiffer (hall "a" foreign_execution hfresh)

end Metadata

end Servo
