import Servo.Framework.Fallible
import Servo.Storage.MetadataCalls

/-! # What a Call Can Do to the Metadata Tables

    The statements on one table, seen through a policy; and for the calls one
    inversion lemma: whatever a call of a tenant does to the tables, it is one
    of the cases of `Change`.
-/

namespace Servo

open Fallible

/-! ### Statements on one table -/

section statements
variable {ρ υ : Type} {key : ρ → Uuid} {uniq : ρ → υ} {t t' : Table key uniq}
  {q shown : ρ → Bool} {row : ρ} {id : Uuid} {f : ρ → ρ} {hf : ∀ r, key (f r) = key r}
  {check_violation : ρ → Option StorageError} {pkey unique : String} {missing : StorageError}

theorem delete_row_eq_ok (h : delete_row t shown id missing = .ok t') :
    ∃ row, t.find? id = some row ∧ shown row = true ∧ t' = t.delete fun r => key r = id := by
  unfold delete_row at h
  split at h
  · cases h
  · next row hrow =>
    obtain ⟨hfound, hshown⟩ := Option.filter_eq_some_iff.mp hrow
    cases h
    exact ⟨row, hfound, hshown, rfl⟩

/-- A DELETE on the rows shown. -/
theorem delete_row_filter :
    delete_row (t.filter q) q id missing = (delete_row t q id missing).map (·.filter q) := by
  unfold delete_row
  rw [Table.find?_filter]
  cases hfound : t.find? id with
  | none => rfl
  | some row =>
    by_cases hq : q row = true
    · simp only [Option.filter_some_pos hq, map_ok, Table.filter_delete]
    · simp only [Option.filter_some_neg (Bool.eq_false_iff.mpr hq), Option.filter_none, map_error]

variable [DecidableEq υ]

theorem insert_row_eq_ok (h : insert_row t pkey unique row = .ok t') : t.insert? row = some t' := by
  unfold insert_row at h
  split at h
  · next hins =>
    cases h
    exact hins
  · cases h

/-- An INSERT on the rows shown, with a fresh id and no hidden row in the way. -/
theorem insert_row_filter (hq : q row = true) (hfresh : t.find? (key row) = none)
    (hclear : ∀ r ∈ t.rows, q r = false → uniq r ≠ uniq row) :
    insert_row (t.filter q) pkey unique row =
      (insert_row t pkey unique row).map (·.filter q) := by
  have hkey := Table.find?_eq_none_iff.mp hfresh
  have hins := Table.insert?_filter hq fun r hr hhidden => ⟨hkey r hr, hclear r hr hhidden⟩
  unfold insert_row
  rw [hins]
  cases t.insert? row with
  | some t' => rfl
  | none =>
    have hany : t.rows.any (fun r => key r = key row) = false := by
      simpa using hkey
    have hany' : (t.filter q).rows.any (fun r => key r = key row) = false := by
      rw [List.any_eq_false]
      intro r hr
      simpa using hkey r (Table.mem_filter.mp hr).1
    simp only [Option.map_none, hany, hany', map_error]

theorem update_row_eq_ok_iff :
    update_row t shown id f hf check_violation unique missing = .ok t' ↔
      ∃ row, t.find? id = some row ∧ shown row = true ∧ check_violation (f row) = none ∧
        t.update? (fun r => key r = id) f hf = some t' := by
  unfold update_row
  constructor
  · intro h
    split at h
    · cases h
    · next row hrow =>
      obtain ⟨hfound, hshown⟩ := Option.filter_eq_some_iff.mp hrow
      split at h
      · cases h
      · next hcheck =>
        split at h
        · next hupd =>
          cases h
          exact ⟨row, hfound, hshown, hcheck, hupd⟩
        · cases h
  · intro hwritten
    obtain ⟨row, hfound, hshown, hcheck, hupd⟩ := hwritten
    rw [hfound, Option.filter_some_pos hshown]
    simp only [hcheck, hupd]

theorem update_row_eq_ok
    (h : update_row t shown id f hf check_violation unique missing = .ok t') :
    ∃ row, t.find? id = some row ∧ shown row = true ∧
      t.update? (fun r => key r = id) f hf = some t' := by
  obtain ⟨row, hfound, hshown, -, hupd⟩ := update_row_eq_ok_iff.mp h
  exact ⟨row, hfound, hshown, hupd⟩

/-- An UPDATE on the rows shown, with no hidden row in the way. -/
theorem update_row_filter (hkeeps : ∀ r, q (f r) = q r)
    (hclear : ∀ row, t.find? id = some row → q row = true → check_violation (f row) = none →
      ∀ r ∈ t.rows, q r = false → uniq r ≠ uniq (f row)) :
    update_row (t.filter q) q id f hf check_violation unique missing =
      (update_row t q id f hf check_violation unique missing).map (·.filter q) := by
  unfold update_row
  rw [Table.find?_filter]
  have hfilter : ((t.find? id).filter q).filter q = (t.find? id).filter q := by
    rw [Option.filter_filter]
    simp
  rw [hfilter]
  cases hrow : (t.find? id).filter q with
  | none => rfl
  | some row =>
    obtain ⟨hfound, hq⟩ := Option.filter_eq_some_iff.mp hrow
    cases hcheck : check_violation (f row) with
    | some violation => simp only [hcheck, map_error]
    | none =>
      have hid : key row = id := Table.key_of_find? hfound
      -- only one row is updated
      have hone : ∀ r ∈ t.rows, decide (key r = id) = true → r = row := by
        intro r hr hkey
        exact Table.eq_of_key_eq hr (Table.mem_of_find? hfound)
          ((of_decide_eq_true hkey).trans hid.symm)
      have hupd : (t.filter q).update? (fun r => key r = id) f hf =
          (t.update? (fun r => key r = id) f hf).map (·.filter q) := by
        refine Table.update?_filter (fun r hr hkey => ?_) fun r hr hkey r' hr' hhidden => ?_
        · rw [hone r hr hkey, hkeeps]
          exact ⟨hq, hq⟩
        · rw [hone r hr hkey]
          exact hclear row hfound hq hcheck r' hr' hhidden
      simp only [hcheck, hupd]
      cases t.update? (fun r => key r = id) f hf <;> rfl

end statements

/-! ### Validated rows -/

theorem tenant_column_eq_ok {relation : String} {tenant_id column : TenantId}
    (h : tenant_column relation tenant_id = .ok column) : column = tenant_id := by
  unfold tenant_column at h
  obtain ⟨column', -, h⟩ := bind_eq_ok_iff.mp h
  split at h
  · next heq =>
    cases h
    exact heq
  · cases h

namespace AssetModel

variable {asset row : AssetModel} {tenant_id : TenantId}

theorem validated_eq_ok (h : asset.validated = .ok row) : row.id = asset.id := by
  unfold validated columns at h
  simp only [bind_eq_ok_iff] at h
  obtain ⟨-, -, -, -, name, -, asset_type, -, owner, -, m, -, f, -, h⟩ := h
  cases h
  rfl

theorem new_row_eq_ok (h : asset.new_row tenant_id = .ok row) :
    row.id = asset.id ∧ row.tenant_id = some tenant_id := by
  unfold new_row at h
  simp only [bind_eq_ok_iff] at h
  obtain ⟨asset', hvalid, column, hcolumn, -, -, h⟩ := h
  have hid := validated_eq_ok hvalid
  cases h
  rw [tenant_column_eq_ok hcolumn]
  exact ⟨hid, rfl⟩

end AssetModel

namespace WorkflowModel

variable {workflow row : WorkflowModel} {tenant_id : TenantId}

theorem validated_eq_ok (h : workflow.validated = .ok row) : row.id = workflow.id := by
  unfold validated columns at h
  simp only [bind_eq_ok_iff] at h
  obtain ⟨-, -, name, -, owner, -, cron, -, timezone, -, job, -, h⟩ := h
  cases h
  rfl

theorem new_row_eq_ok (h : workflow.new_row tenant_id = .ok row) :
    row.id = workflow.id ∧ row.tenant_id = some tenant_id := by
  unfold new_row at h
  simp only [bind_eq_ok_iff] at h
  obtain ⟨workflow', hvalid, column, hcolumn, -, -, h⟩ := h
  have hid := validated_eq_ok hvalid
  cases h
  rw [tenant_column_eq_ok hcolumn]
  exact ⟨hid, rfl⟩

end WorkflowModel

namespace AssetCheckModel

variable {check row : AssetCheckModel} {tenant_id : TenantId}

theorem validated_eq_ok (h : check.validated = .ok row) :
    row.id = check.id ∧ row.asset_id = check.asset_id := by
  unfold validated columns at h
  simp only [bind_eq_ok_iff] at h
  obtain ⟨-, -, -, -, name, -, owner, -, h⟩ := h
  cases h
  exact ⟨rfl, rfl⟩

theorem new_row_eq_ok (h : check.new_row tenant_id = .ok row) :
    row.id = check.id ∧ row.asset_id = check.asset_id ∧ row.tenant_id = some tenant_id := by
  unfold new_row at h
  simp only [bind_eq_ok_iff] at h
  obtain ⟨check', hvalid, column, hcolumn, h⟩ := h
  cases h
  rw [tenant_column_eq_ok hcolumn]
  obtain ⟨hid, hasset⟩ := validated_eq_ok hvalid
  exact ⟨hid, hasset, rfl⟩

end AssetCheckModel

namespace Executions

variable {executions executions' : Executions} {execution : ExecutionModel}
  {tenant_id : TenantId} {id : Uuid}

theorem insert?_of_create (h : executions.create_execution execution tenant_id =
    .ok executions') :
    executions.insert? { execution with tenant_id := some tenant_id } = some executions' := by
  unfold create_execution at h
  simp only at h
  split at h
  · cases h
  · split at h
    · next hins =>
      cases h
      exact hins
    · cases h

theorem check_violation_of_create (h : executions.create_execution execution tenant_id =
    .ok executions') : execution.check_violation = none := by
  unfold create_execution at h
  simp only at h
  split at h
  · cases h
  · next hnone => exact hnone

theorem insert?_of_created (h : executions.create_execution_or_get_existing execution tenant_id =
    .ok (executions', id, true)) :
    executions.insert? { execution with tenant_id := some tenant_id } = some executions' := by
  unfold create_execution_or_get_existing at h
  simp only at h
  split at h
  · cases h
  · split at h
    · split at h <;> cases h
    · split at h
      · next hins =>
        cases h
        exact hins
      · cases h

theorem check_violation_of_created
    (h : executions.create_execution_or_get_existing execution tenant_id =
      .ok (executions', id, true)) : execution.check_violation = none := by
  unfold create_execution_or_get_existing at h
  simp only at h
  split at h
  · cases h
  · next hnone => exact hnone

theorem modify_of_update (h : executions.update_execution execution tenant_id =
    .ok executions') :
    ∃ row, executions.find? execution.id = some row ∧ row.visible_to tenant_id = true ∧
      executions' = executions.modify (fun row => row.id = execution.id) (·.updatedTo execution)
        (fun _ => ⟨rfl, rfl⟩) := by
  unfold update_execution at h
  split at h
  · next row hrow =>
    obtain ⟨hfound, hshown⟩ := Option.filter_eq_some_iff.mp hrow
    split at h
    · cases h
    · cases h
      exact ⟨row, hfound, hshown, rfl⟩
  · cases h

end Executions

namespace Metadata

/-! ### References to other tenants -/

/-- A new execution that passes its checks is one of a workflow of the tenant. -/
def own_workflow (tenant_id : TenantId) (db : Metadata) (state : String)
    (execution : ExecutionModel) : Prop :=
  (validate_execution_state state).isOk = true →
    (tenant_column "executions" tenant_id).isOk = true →
    execution.check_violation = none →
      ∀ workflow, db.workflows.find? execution.workflow_id = some workflow →
        workflow.tenant_id = some tenant_id

/-- No other tenant's check has the key. -/
def own_check_key (tenant_id : TenantId) (db : Metadata) (key : Uuid × String) : Prop :=
  ∀ other ∈ db.asset_checks.rows, other.unique_key = key → other.tenant_id = some tenant_id

/-- The operation of the tenant refers to no row of another one: a new execution to its
    workflow, a new check to its asset, and a check by its key. -/
def own_references (tenant_id : TenantId) (db : Metadata) : MetadataOp → Prop
  | .create_execution state execution => own_workflow tenant_id db state execution
  | .create_execution_or_get_existing state execution => own_workflow tenant_id db state execution
  | .create_asset_check check => ∀ row, check.new_row tenant_id = .ok row →
      (∀ asset, db.assets.find? row.asset_id = some asset → asset.tenant_id = some tenant_id) ∧
        own_check_key tenant_id db row.unique_key
  | .update_asset_check check => ∀ columns, check.validated = .ok columns →
      ∀ row, db.asset_checks.find? columns.id = some row → row.tenant_id = some tenant_id →
        own_check_key tenant_id db (row.updated_to columns).unique_key
  | _ => True

/-! ### Changes -/

/-- What a call of tenant `T` can do to the tables. Of the references of `A` it says that they
    are to rows of `A`. -/
inductive Change (A T : TenantId) (db : Metadata) : Metadata → Prop
  | unchanged : Change A T db db
  | insert_asset {row : AssetModel} {assets : Assets} (htenant : row.tenant_id = some T)
      (hins : db.assets.insert? row = some assets) : Change A T db { db with assets }
  | update_asset {id : Uuid} {row columns : AssetModel} {assets : Assets}
      (hfound : db.assets.find? id = some row) (hshown : visible_to T row.tenant_id = true)
      (hupd : db.assets.update? (fun r => r.id = id) (·.updated_to columns) (fun _ => rfl) =
        some assets) : Change A T db { db with assets }
  | delete_asset {id : Uuid} {row : AssetModel} (hfound : db.assets.find? id = some row)
      (hshown : visible_to T row.tenant_id = true) :
      Change A T db { db with
        assets := db.assets.delete fun r => r.id = id
        asset_dependencies := db.asset_dependencies.delete (·.touches id)
        asset_checks := db.asset_checks.delete (·.asset_id = id)
        workflow_assets := db.workflow_assets.delete (·.asset_id = id) }
  | insert_workflow {row : WorkflowModel} {workflows : Workflows}
      (htenant : row.tenant_id = some T) (hins : db.workflows.insert? row = some workflows) :
      Change A T db { db with workflows }
  | update_workflow {id : Uuid} {row columns : WorkflowModel} {workflows : Workflows}
      (hfound : db.workflows.find? id = some row) (hshown : visible_to T row.tenant_id = true)
      (hupd : db.workflows.update? (fun r => r.id = id) (·.updated_to columns) (fun _ => rfl) =
        some workflows) : Change A T db { db with workflows }
  | delete_workflow {id : Uuid} {row : WorkflowModel} (hfound : db.workflows.find? id = some row)
      (hshown : visible_to T row.tenant_id = true) :
      Change A T db { db with
        workflows := db.workflows.delete fun r => r.id = id
        executions := db.executions.delete (·.workflow_id = id)
        workflow_assets := db.workflow_assets.delete (·.workflow_id = id) }
  | insert_execution {row : ExecutionModel} {executions : Executions} {workflow : WorkflowModel}
      (htenant : row.tenant_id = some T) (hins : db.executions.insert? row = some executions)
      (hworkflow : db.workflows.find? row.workflow_id = some workflow)
      (hown : T = A → workflow.tenant_id = some A) : Change A T db { db with executions }
  | update_execution {row columns : ExecutionModel}
      (hfound : db.executions.find? columns.id = some row) (hshown : row.visible_to T = true) :
      Change A T db { db with
        executions := db.executions.modify (fun r => r.id = columns.id) (·.updatedTo columns)
          (fun _ => ⟨rfl, rfl⟩) }
  | delete_execution {id : Uuid} {row : ExecutionModel}
      (hfound : db.executions.find? id = some row) (hshown : row.visible_to T = true) :
      Change A T db { db with executions := db.executions.delete fun r => r.id = id }
  | insert_dependency {row : AssetDependencyModel} {asset_dependencies : AssetDependencies}
      (hshown : db.dependency_visible T row = true)
      (hins : db.asset_dependencies.insert? row = some asset_dependencies) :
      Change A T db { db with asset_dependencies }
  | delete_dependencies {p : AssetDependencyModel → Bool}
      (hshown : ∀ row ∈ db.asset_dependencies.rows, p row = true →
        db.dependency_visible T row = true) :
      Change A T db { db with asset_dependencies := db.asset_dependencies.delete p }
  | insert_check {row : AssetCheckModel} {asset_checks : AssetChecks} {asset : AssetModel}
      (htenant : row.tenant_id = some T) (hins : db.asset_checks.insert? row = some asset_checks)
      (hasset : db.assets.find? row.asset_id = some asset)
      (hown : T = A → asset.tenant_id = some A) : Change A T db { db with asset_checks }
  | update_check {id : Uuid} {row columns : AssetCheckModel} {asset_checks : AssetChecks}
      (hfound : db.asset_checks.find? id = some row) (hshown : visible_to T row.tenant_id = true)
      (hupd : db.asset_checks.update? (fun r => r.id = id) (·.updated_to columns)
        (fun _ => rfl) = some asset_checks) : Change A T db { db with asset_checks }
  | delete_check {id : Uuid} {row : AssetCheckModel}
      (hfound : db.asset_checks.find? id = some row) (hshown : visible_to T row.tenant_id = true) :
      Change A T db { db with asset_checks := db.asset_checks.delete fun r => r.id = id }

variable {A T : TenantId} {db db' : Metadata} {op : MetadataOp} {reply : MetadataReply}

theorem isOk_of_eq_ok {ε α : Type} {x : Except ε α} {a : α} (h : x = .ok a) : x.isOk = true := by
  rw [h]
  rfl

theorem require_eq_ok {violation : Option StorageError} {u : Unit}
    (h : require violation = .ok u) : violation = none := by
  cases violation with
  | none => rfl
  | some e => cases h

theorem find?_of_asset_missing {asset_id : Uuid} (h : db.asset_missing asset_id = none) :
    ∃ asset, db.assets.find? asset_id = some asset := by
  unfold asset_missing at h
  split at h
  · next hsome => exact Option.isSome_iff_exists.mp hsome
  · cases h

theorem find?_of_workflow_missing {workflow_id : Uuid}
    (h : db.workflow_missing workflow_id = none) :
    ∃ workflow, db.workflows.find? workflow_id = some workflow := by
  unfold workflow_missing at h
  split at h
  · next hsome => exact Option.isSome_iff_exists.mp hsome
  · cases h

theorem done_eq_ok {outcome : Except StorageError Metadata}
    (h : done outcome = .ok (db', reply)) : outcome = .ok db' := by
  obtain ⟨db₁, hok, heq⟩ := map_eq_ok_iff.mp h
  cases heq
  exact hok

/-- **Inversion.** Whatever a call does to the tables is a `Change`. -/
theorem change_of_perform (hown : T = A → own_references A db op)
    (h : db.perform T op = .ok (db', reply)) : Change A T db db' := by
  cases op with
  | create_asset asset =>
    obtain ⟨row, hrow, assets, hins, hdb⟩ := by
      simpa only [create_asset, bind_eq_ok_iff] using done_eq_ok h
    cases hdb
    exact .insert_asset (AssetModel.new_row_eq_ok hrow).2 (insert_row_eq_ok hins)
  | update_asset asset =>
    obtain ⟨columns, -, assets, hupd, hdb⟩ := by
      simpa only [update_asset, bind_eq_ok_iff] using done_eq_ok h
    obtain ⟨row, hfound, hshown, hupd⟩ := update_row_eq_ok hupd
    cases hdb
    exact .update_asset hfound hshown hupd
  | delete_asset id =>
    obtain ⟨assets, hdel, hdb⟩ := by
      simpa only [delete_asset, bind_eq_ok_iff] using done_eq_ok h
    obtain ⟨row, hfound, hshown, rfl⟩ := delete_row_eq_ok hdel
    cases hdb
    exact .delete_asset hfound hshown
  | create_workflow workflow =>
    obtain ⟨row, hrow, workflows, hins, hdb⟩ := by
      simpa only [create_workflow, bind_eq_ok_iff] using done_eq_ok h
    cases hdb
    exact .insert_workflow (WorkflowModel.new_row_eq_ok hrow).2 (insert_row_eq_ok hins)
  | update_workflow workflow =>
    obtain ⟨columns, -, workflows, hupd, hdb⟩ := by
      simpa only [update_workflow, bind_eq_ok_iff] using done_eq_ok h
    obtain ⟨row, hfound, hshown, hupd⟩ := update_row_eq_ok hupd
    cases hdb
    exact .update_workflow hfound hshown hupd
  | delete_workflow id =>
    obtain ⟨workflows, hdel, hdb⟩ := by
      simpa only [delete_workflow, bind_eq_ok_iff] using done_eq_ok h
    obtain ⟨row, hfound, hshown, rfl⟩ := delete_row_eq_ok hdel
    cases hdb
    exact .delete_workflow hfound hshown
  | create_execution state execution =>
    obtain ⟨s, hs, column, hcolumn, executions, hcreate, u, hmissing, hdb⟩ := by
      simpa only [create_execution, bind_eq_ok_iff] using done_eq_ok h
    obtain ⟨workflow, hworkflow⟩ := find?_of_workflow_missing (require_eq_ok hmissing)
    have hcheck := Executions.check_violation_of_create hcreate
    have hins := Executions.insert?_of_create hcreate
    cases hdb
    rw [tenant_column_eq_ok hcolumn] at hins hcolumn
    refine .insert_execution rfl hins hworkflow fun hTA => ?_
    exact hown hTA (isOk_of_eq_ok hs) (isOk_of_eq_ok (hTA ▸ hcolumn)) hcheck workflow hworkflow
  | create_execution_or_get_existing state execution =>
    obtain ⟨⟨db₁, id, created⟩, houtcome, heq⟩ := map_eq_ok_iff.mp h
    obtain ⟨s, hs, column, hcolumn, ⟨executions, id', was_created⟩, hcreate, u, hmissing, hdb⟩ := by
      simpa only [create_execution_or_get_existing, bind_eq_ok_iff] using houtcome
    cases hdb
    cases heq
    cases was_created with
    | false =>
      rcases Executions.create_execution_eq_ok hcreate with ⟨hcreated, -⟩ | ⟨-, rfl⟩
      · cases hcreated
      · exact .unchanged
    | true =>
      obtain ⟨workflow, hworkflow⟩ := find?_of_workflow_missing (require_eq_ok hmissing)
      have hcheck := Executions.check_violation_of_created hcreate
      have hins := Executions.insert?_of_created hcreate
      rw [tenant_column_eq_ok hcolumn] at hins hcolumn
      refine .insert_execution rfl hins hworkflow fun hTA => ?_
      exact hown hTA (isOk_of_eq_ok hs) (isOk_of_eq_ok (hTA ▸ hcolumn)) hcheck workflow hworkflow
  | update_execution state execution =>
    obtain ⟨s, -, executions, hupd, hdb⟩ := by
      simpa only [update_execution, bind_eq_ok_iff] using done_eq_ok h
    obtain ⟨row, hfound, hshown, rfl⟩ := Executions.modify_of_update hupd
    cases hdb
    exact .update_execution hfound hshown
  | delete_execution id =>
    obtain ⟨executions, hdel, hdb⟩ := by
      simpa only [delete_execution, bind_eq_ok_iff] using done_eq_ok h
    obtain ⟨row, hfound, hshown, rfl⟩ := delete_row_eq_ok hdel
    cases hdb
    exact .delete_execution hfound hshown
  | create_asset_dependency id now upstream_asset_id downstream_asset_id dependency_type =>
    obtain ⟨⟨db₁, id'⟩, houtcome, heq⟩ := map_eq_ok_iff.mp h
    obtain ⟨-, -, -, -, u, hvisible, asset_dependencies, hins, hdb⟩ := by
      simpa only [create_asset_dependency, bind_eq_ok_iff] using houtcome
    cases hdb
    cases heq
    have hshown := require_eq_ok hvisible
    split at hshown
    · next hshown' => exact .insert_dependency hshown' (insert_row_eq_ok hins)
    · cases hshown
  | delete_asset_dependency id =>
    obtain ⟨asset_dependencies, hdel, hdb⟩ := by
      simpa only [delete_asset_dependency, bind_eq_ok_iff] using done_eq_ok h
    obtain ⟨row, hfound, hshown, rfl⟩ := delete_row_eq_ok hdel
    cases hdb
    refine .delete_dependencies fun r hr hid => ?_
    have hkey : r.id = row.id := (of_decide_eq_true hid).trans (Table.key_of_find? hfound).symm
    rw [Table.eq_of_key_eq hr (Table.mem_of_find? hfound) hkey]
    exact hshown
  | delete_asset_dependencies_for_asset asset_id =>
    cases h
    refine .delete_dependencies fun r _ hp => ?_
    rw [Bool.and_eq_true] at hp
    exact hp.1
  | create_asset_check check =>
    obtain ⟨row, hrow, asset_checks, hins, u, hmissing, hdb⟩ := by
      simpa only [create_asset_check, bind_eq_ok_iff] using done_eq_ok h
    obtain ⟨asset, hasset⟩ := find?_of_asset_missing (require_eq_ok hmissing)
    cases hdb
    refine .insert_check (AssetCheckModel.new_row_eq_ok hrow).2.2 (insert_row_eq_ok hins) hasset
      fun hTA => ?_
    exact (hown hTA row (hTA ▸ hrow)).1 asset hasset
  | update_asset_check check =>
    obtain ⟨columns, -, asset_checks, hupd, hdb⟩ := by
      simpa only [update_asset_check, bind_eq_ok_iff] using done_eq_ok h
    obtain ⟨row, hfound, hshown, hupd⟩ := update_row_eq_ok hupd
    cases hdb
    exact .update_check hfound hshown hupd
  | delete_asset_check id =>
    obtain ⟨asset_checks, hdel, hdb⟩ := by
      simpa only [delete_asset_check, bind_eq_ok_iff] using done_eq_ok h
    obtain ⟨row, hfound, hshown, rfl⟩ := delete_row_eq_ok hdel
    cases hdb
    exact .delete_check hfound hshown
  | _ =>
    -- the others only read
    first
    | cases h
      exact .unchanged
    | obtain ⟨value, -, heq⟩ := map_eq_ok_iff.mp h
      cases heq
      exact .unchanged

end Metadata

end Servo
