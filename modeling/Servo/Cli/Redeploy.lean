import Servo.Cli.PartialDeploy

/-! # Deploying Again

    A definition that has been deployed cannot be deployed a second time. If
    its workflow is found, the update writes version 0, which a CHECK
    constraint refuses; if it is not found, the row to be created has the name
    and version of the one that is there.
-/

namespace Servo

open Procedure

/-! ### What is stored of a definition -/

/-- The row says of the asset what its definition says. -/
def AssetDefinition.Describes (asset_def : AssetDefinition) (workflow_owner : Option String)
    (asset : AssetModel) : Prop :=
  asset.name = asset_def.name ∧ asset.description = asset_def.description ∧
    asset.asset_type = asset_def.asset_type ∧
    asset.owner = (asset_def.owner <|> workflow_owner) ∧ asset.tags = asset_def.tags ∧
    asset.partition_config = asset_def.partition.map (·.to_partition_config_json) ∧
    asset.compute_fn_module = asset_def.compute_fn_module ∧
    asset.compute_fn_function = asset_def.compute_fn_function

/-- A dependency is stored between assets of these names. -/
def Metadata.HasEdge (db : Metadata) (tenant : TenantId) (upstream downstream : String)
    (dep_type : String) : Prop :=
  ∃ dep ∈ db.visible_dependencies tenant, dep.dependency_type = dep_type ∧
    ∃ up ∈ db.visible_assets tenant, ∃ down ∈ db.visible_assets tenant,
      up.id = dep.upstream_asset_id ∧ up.name = upstream ∧
      down.id = dep.downstream_asset_id ∧ down.name = downstream

/-- The assets of the definition are stored, and of their dependencies exactly those that it
    has. -/
structure WorkflowDefinition.StoredIn (definition : WorkflowDefinition) (tenant : TenantId)
    (db : Metadata) : Prop where
  assets : ∀ asset_def ∈ definition.assets, ∃ asset ∈ db.visible_assets tenant,
    asset_def.Describes definition.owner asset ∧
    ∀ asset' ∈ db.visible_assets tenant, asset'.name = asset_def.name → asset' = asset
  edges : ∀ asset_def ∈ definition.assets, ∀ upstream dep_type,
    db.HasEdge tenant upstream asset_def.name dep_type ↔
      ⟨upstream, dep_type⟩ ∈ asset_def.dependencies

/-- From these tables the definition is deployed, and then deployed again in another
    environment; each time the tables hold what it says. -/
structure DeployedTwice (env env' : Environment) (tenant : TenantId)
    (definition : WorkflowDefinition) (db : Metadata) (jobs jobs' : SchedulerJobs) : Prop where
  deploys : (deploy_workflow env tenant (.ok definition) (.start db jobs)).1.isOk = true
  stores : definition.StoredIn tenant
    (deploy_workflow env tenant (.ok definition) (.start db jobs)).2.db
  redeploys : (deploy_workflow env' tenant (.ok definition) (.start
    (deploy_workflow env tenant (.ok definition) (.start db jobs)).2.db jobs')).1.isOk = true
  stores_again : definition.StoredIn tenant (deploy_workflow env' tenant (.ok definition) (.start
    (deploy_workflow env tenant (.ok definition) (.start db jobs)).2.db jobs')).2.db

/-! ### The second deploy -/

section redeploy
variable {env env' : Environment} {lookups lookups' : Lookups} {tenant : TenantId}
  {definition : WorkflowDefinition}

/-- After a deploy the key of the workflow's first version is taken. -/
theorem key_taken (hsound : lookups.Sound env) {w w' : World} {result : DeploymentResult}
    (h : deploy_workflow_with env lookups tenant (.ok definition) w = (.ok result, w')) :
    ∃ name, varchar 255 definition.name = .ok name ∧
      ∃ r ∈ w'.db.workflows.rows, r.unique_key = .inl (name, tenant, 1) := by
  obtain ⟨definition', db, -, hparse, -, hcreate, -, -, -, hkept⟩ :=
    deploy_workflow_with_eq_ok hsound h
  obtain ⟨hfile, -⟩ := parse_workflow_file_eq_ok_iff.mp hparse
  cases hfile
  obtain ⟨name, hname, -, r, hr, hkey⟩ := Metadata.create_workflow_key hcreate
  refine ⟨name, hname, r, ?_, hkey⟩
  rw [hkept.workflows]
  exact hr

/-- While it is taken, no deploy of the definition succeeds. -/
theorem deploy_fails_of_key_taken (hsound : lookups.Sound env) {w w' : World}
    {result : DeploymentResult} {name : String} (hname : varchar 255 definition.name = .ok name)
    {r : WorkflowModel} (hr : r ∈ w.db.workflows.rows)
    (hkey : r.unique_key = .inl (name, tenant, 1)) :
    deploy_workflow_with env lookups tenant (.ok definition) w ≠ (.ok result, w') := by
  intro h
  obtain ⟨definition', db, -, hparse, -, hcreate, -⟩ := deploy_workflow_with_eq_ok hsound h
  obtain ⟨hfile, -⟩ := parse_workflow_file_eq_ok_iff.mp hparse
  cases hfile
  obtain ⟨name', hname', hfree, -⟩ := Metadata.create_workflow_key hcreate
  obtain rfl : name = name' := Except.ok.inj (hname.symm.trans hname')
  exact hfree r hr hkey

/-- No definition can be deployed twice, from no tables at all, whatever the environments. -/
theorem not_deployed_twice (env env' : Environment) (tenant : TenantId)
    (definition : WorkflowDefinition) (db : Metadata) (jobs jobs' : SchedulerJobs) :
    ¬ DeployedTwice env env' tenant definition db jobs jobs' := by
  intro h
  rcases hfirst : deploy_workflow env tenant (.ok definition) (.start db jobs) with ⟨e | result, w⟩
  · have hok := h.deploys
    rw [hfirst] at hok
    cases hok
  · obtain ⟨name, hname, r, hr, hkey⟩ := key_taken Lookups.listing_sound hfirst
    have hok := h.redeploys
    rw [hfirst] at hok
    rcases hsecond : deploy_workflow env' tenant (.ok definition) (.start w.db jobs') with
      ⟨e | result', w'⟩
    · rw [hsecond] at hok
      cases hok
    · exact deploy_fails_of_key_taken (w := .start w.db jobs') Lookups.listing_sound hname hr hkey
        hsecond

end redeploy

/-! ### The definition of the documentation -/

/-- A first deploy of `daily_etl`, with its assets or without. -/
def first_deploy (assets : List AssetDefinition) : Except DeployError DeploymentResult × World :=
  deploy_workflow (.quiet 0) "default" (.ok { daily_etl with assets }) (.start .empty [])

/-- A second one. -/
def second_deploy (assets : List AssetDefinition) : Except DeployError DeploymentResult × World :=
  deploy_workflow (.quiet 1) "default" (.ok { daily_etl with assets })
    (.start (first_deploy assets).2.db [])

/-- With assets the first deploy fails, where it looks for the first of them; without, the second
    fails. -/
theorem daily_etl_is_not_redeployed :
    (first_deploy daily_etl.assets).1 = .error ["Validation error: Limit cannot exceed 1000"] ∧
      (first_deploy []).1.isOk = true ∧
      (second_deploy []).1 = .error ["Failed to update workflow",
        "Validation error: Constraint violation: new row for relation \"workflows\" " ++
          "violates check constraint \"workflows_version_positive\""] := by
  decide +kernel

end Servo
