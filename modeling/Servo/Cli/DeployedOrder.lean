import Servo.Cli.PartialDeploy
import Servo.Runtime.LocalExecutor

/-! # The Order of Deployed Assets

    `get_workflow_assets` and with it a local run take the assets of a
    workflow from `workflow_assets`, where their positions are to be a
    topological order. A deploy does not write there: its workflow has a new
    id, which no row of that table can refer to, and so it has no assets.
-/

namespace Servo

open Procedure

/-- `workflow_assets_workflow_id_fkey`. -/
def Metadata.PositionsRefer (db : Metadata) : Prop :=
  ∀ row ∈ db.workflow_assets.rows, ∃ workflow ∈ db.workflows.rows, workflow.id = row.workflow_id

/-- Every asset of the definition once, each after all it depends on. `asset_ids` has the ids
    that the deploy has given them. -/
structure WorkflowDefinition.OrderedBy (definition : WorkflowDefinition)
    (asset_ids : List (String × Uuid)) (order : List Uuid) : Prop where
  once : order.Perm (asset_ids.map (·.2))
  upstream_first : ∀ edge ∈ definition.edges, ∀ (downstream_id upstream_id : Uuid),
    asset_ids.lookup edge.1 = some downstream_id →
    asset_ids.lookup edge.2.asset = some upstream_id →
    ∀ i j : Nat, order[i]? = some downstream_id → order[j]? = some upstream_id → j < i

/-- The workflow can be run in order: what the storage returns for it is the definition in such
    an order, and an undisturbed local run executes that. -/
structure RunsInOrder (definition : WorkflowDefinition) (tenant : TenantId)
    (result : DeploymentResult) (db : Metadata) : Prop where
  returned : definition.OrderedBy result.asset_ids
    ((db.get_workflow_assets tenant result.workflow_id).map (·.id))
  executed : ∀ executor : LocalExecutor, executor.Undisturbed → executor.tenant_id = tenant →
    ∀ execution_id, definition.OrderedBy result.asset_ids
      ((executor.run_workflow_locally db result.workflow_id execution_id []).2.map (·.id))

section order
variable {env : Environment} {lookups : Lookups} {tenant : TenantId}
  {definition : WorkflowDefinition}

/-- The first pass gives one id to each asset. -/
theorem deploy_assets_length {w w' : World} {asset_ids : List (String × Uuid)}
    (h : deploy_assets env lookups tenant definition w = (.ok asset_ids, w')) :
    asset_ids.length = definition.assets.length := by
  have hcount := foldlM_ok_count (m := List.length) (fun before asset_def s after s' hround => by
    obtain ⟨asset_id, s₁, -, hpure⟩ := bind_eq_ok_iff.mp hround
    obtain ⟨rfl, -⟩ := pure_eq_iff.mp hpure
    exact List.length_cons) h
  rwa [List.length_nil, Nat.zero_add] at hcount

/-- The rows for a workflow that is not there. -/
theorem Metadata.PositionsRefer.get_workflow_assets {db db' : Metadata} (h : db.PositionsRefer)
    (hsame : db'.workflow_assets = db.workflow_assets) {workflow_id : Uuid}
    (hfresh : ∀ workflow ∈ db.workflows.rows, workflow.id ≠ workflow_id) (tenant : TenantId) :
    db'.get_workflow_assets tenant workflow_id = [] := by
  have hnone : db'.workflow_assets.rows.filter (·.workflow_id = workflow_id) = [] := by
    rw [hsame, List.filter_eq_nil_iff]
    intro row hrow hid
    obtain ⟨workflow, hworkflow, heq⟩ := h row hrow
    exact hfresh workflow hworkflow (heq.trans (of_decide_eq_true hid))
  unfold Metadata.get_workflow_assets
  rw [hnone]
  rfl

/-- After a successful deploy its workflow is there. -/
theorem deployed_workflow_found (hsound : lookups.Sound env)
    {workflow_file : Except DeployError WorkflowDefinition} {w w' : World}
    {result : DeploymentResult}
    (h : deploy_workflow_with env lookups tenant workflow_file w = (.ok result, w')) :
    ∃ workflow, w'.db.get_workflow tenant result.workflow_id = .ok workflow := by
  obtain ⟨definition, db, -, -, -, hcreate, -, -, hid, hkept⟩ := deploy_workflow_with_eq_ok hsound h
  obtain ⟨row, -, hget⟩ := Metadata.get_workflow_of_create hcreate
  refine ⟨row, Metadata.get_workflow_eq_ok_iff.mpr ?_⟩
  rw [hkept.workflows, hid]
  exact Metadata.get_workflow_eq_ok_iff.mp hget

/-- But the storage returns no assets for it. -/
theorem deployed_has_no_positions (hsound : lookups.Sound env)
    {workflow_file : Except DeployError WorkflowDefinition} {w w' : World}
    {result : DeploymentResult} (hrefer : w.db.PositionsRefer)
    (h : deploy_workflow_with env lookups tenant workflow_file w = (.ok result, w')) :
    w'.db.get_workflow_assets tenant result.workflow_id = [] := by
  obtain ⟨definition, db, -, -, -, hcreate, -, -, hid, hkept⟩ := deploy_workflow_with_eq_ok hsound h
  rw [hid]
  obtain ⟨row, workflows, hrow, hins, rfl⟩ := Metadata.create_workflow_eq_ok hcreate
  refine hrefer.get_workflow_assets hkept.workflow_assets (fun workflow hworkflow hsame => ?_)
    tenant
  -- the new row could not have been inserted
  have hrow_id : row.id = env.uuid w.uuids := (WorkflowModel.new_row_eq_ok hrow).1
  exact Table.find?_eq_none_iff.mp (Table.find?_of_insert? hins) workflow hworkflow
    (hsame.trans hrow_id.symm)

/-- The asset ids of the result are as many as the assets of the definition. -/
theorem deployed_asset_ids (hsound : lookups.Sound env) {w w' : World} {result : DeploymentResult}
    (h : deploy_workflow_with env lookups tenant (.ok definition) w = (.ok result, w')) :
    result.asset_ids.length = definition.assets.length := by
  obtain ⟨definition', db, w₁, hparse, -, -, hassets, -⟩ := deploy_workflow_with_eq_ok hsound h
  obtain ⟨hfile, -⟩ := parse_workflow_file_eq_ok_iff.mp hparse
  cases hfile
  exact deploy_assets_length hassets

/-- No order but the empty one has nothing in it. -/
theorem orderedBy_nil_iff {asset_ids : List (String × Uuid)}
    (hlength : asset_ids.length = definition.assets.length) :
    definition.OrderedBy asset_ids [] ↔ definition.assets = [] := by
  constructor
  · intro h
    have hids := h.once.length_eq
    rw [List.length_nil, List.length_map, hlength] at hids
    exact List.eq_nil_of_length_eq_zero hids.symm
  · intro h
    rw [h] at hlength
    have hnil := List.eq_nil_of_length_eq_zero hlength
    subst hnil
    refine ⟨List.Perm.refl _, fun edge _ downstream_id upstream_id hdown => ?_⟩
    cases hdown

/-- With lookups that miss nothing, what has been deployed can be run in order exactly if it has
    no assets. -/
theorem runs_in_order_iff {w w' : World} {result : DeploymentResult}
    (hrefer : w.db.PositionsRefer)
    (h : deploy_workflow_with env (.exact env) tenant (.ok definition) w = (.ok result, w')) :
    RunsInOrder definition tenant result w'.db ↔ definition.assets = [] := by
  have hempty := deployed_has_no_positions Lookups.exact_sound hrefer h
  have hnil := orderedBy_nil_iff (deployed_asset_ids Lookups.exact_sound h)
  constructor
  · intro hruns
    have hreturned := hruns.returned
    rw [hempty] at hreturned
    exact hnil.mp hreturned
  · intro hassets
    refine ⟨?_, fun executor hundisturbed htenant execution_id => ?_⟩
    · rw [hempty]
      exact hnil.mpr hassets
    · subst htenant
      obtain ⟨workflow, hworkflow⟩ := deployed_workflow_found Lookups.exact_sound h
      rw [hundisturbed.run_workflow_locally hworkflow, hempty]
      exact hnil.mpr hassets

end order

/-! ### The definition of the documentation -/

/-- `daily_etl` is deployed with lookups that miss nothing. -/
def exact_deploy : Except DeployError DeploymentResult × World :=
  deploy_workflow_with (.quiet 0) (.exact (.quiet 0)) "default" (.ok daily_etl) (.start .empty [])

def daily_etl_result : DeploymentResult :=
  ⟨1, [("sales_report", 4), ("transformed_sales", 3), ("raw_sales", 2)], 2, false⟩

theorem daily_etl_deploys : exact_deploy.1 = .ok daily_etl_result := by decide +kernel

theorem daily_etl_in_order_iff :
    exact_deploy.1 = .ok daily_etl_result ∧
      (RunsInOrder daily_etl "default" daily_etl_result exact_deploy.2.db ↔
        daily_etl.assets = []) := by
  refine ⟨daily_etl_deploys, ?_⟩
  have hfst := daily_etl_deploys
  generalize hdeploy : exact_deploy = outcome at hfst ⊢
  obtain ⟨result, w'⟩ := outcome
  subst hfst
  exact runs_in_order_iff (fun _ hrow => absurd hrow List.not_mem_nil) hdeploy

/-- Its deploy succeeds, and none of its three assets will be run. -/
theorem daily_etl_is_not_run :
    exact_deploy.1 = .ok daily_etl_result ∧
      exact_deploy.2.db.get_workflow_assets "default" daily_etl_result.workflow_id = [] ∧
      ¬ RunsInOrder daily_etl "default" daily_etl_result exact_deploy.2.db := by
  have hnone :
      exact_deploy.2.db.get_workflow_assets "default" daily_etl_result.workflow_id = [] := by
    decide +kernel
  refine ⟨daily_etl_deploys, hnone, fun h => ?_⟩
  have hlength := h.returned.once.length_eq
  rw [hnone] at hlength
  exact absurd hlength (by decide)

end Servo
