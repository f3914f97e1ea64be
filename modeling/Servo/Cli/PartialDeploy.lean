import Servo.Cli.DeployEffects
import Servo.Storage.WorkflowRows

/-! # What a Failed Deploy Leaves

    No transaction spans a deploy. Once the workflow row has been written, a
    failure leaves it there, with those assets and dependencies that came
    before the failure; rows that the definition does not name stay as they
    were. Before that write nothing is changed.
-/

namespace Servo

open Procedure

/-- Is it the name of an asset of the definition, or what the name column makes of one? -/
def WorkflowDefinition.names (definition : WorkflowDefinition) (name : String) : Prop :=
  ∃ asset_def ∈ definition.assets, name = asset_def.name ∨ varchar 255 asset_def.name = .ok name

/-- What may have happened to the tables when some of the assets and dependencies have been
    deployed. -/
structure PartialDeploy (definition : WorkflowDefinition) (db db' : Metadata) : Prop where
  workflows : db'.workflows = db.workflows
  executions : db'.executions = db.executions
  asset_checks : db'.asset_checks = db.asset_checks
  workflow_assets : db'.workflow_assets = db.workflow_assets
  /-- No dependency is lost. -/
  dependencies : ∀ dep ∈ db.asset_dependencies.rows, dep ∈ db'.asset_dependencies.rows
  /-- Assets of other names are neither written nor created. -/
  unnamed : ∀ asset : AssetModel, ¬ definition.names asset.name →
    (asset ∈ db'.assets.rows ↔ asset ∈ db.assets.rows)
  /-- No asset is lost. -/
  kept : ∀ asset ∈ db.assets.rows, ∃ asset' ∈ db'.assets.rows, asset'.id = asset.id ∧
    asset'.tenant_id = asset.tenant_id ∧ asset'.created_at = asset.created_at

namespace PartialDeploy

variable {definition : WorkflowDefinition} {db db₁ db₂ db₃ : Metadata}

theorem refl (db : Metadata) : PartialDeploy definition db db where
  workflows := rfl
  executions := rfl
  asset_checks := rfl
  workflow_assets := rfl
  dependencies := fun _ h => h
  unnamed := fun _ _ => Iff.rfl
  kept := fun asset h => ⟨asset, h, rfl, rfl, rfl⟩

theorem trans (h : PartialDeploy definition db₁ db₂) (h' : PartialDeploy definition db₂ db₃) :
    PartialDeploy definition db₁ db₃ where
  workflows := h'.workflows.trans h.workflows
  executions := h'.executions.trans h.executions
  asset_checks := h'.asset_checks.trans h.asset_checks
  workflow_assets := h'.workflow_assets.trans h.workflow_assets
  dependencies := fun dep hdep => h'.dependencies dep (h.dependencies dep hdep)
  unnamed := fun asset hun => (h'.unnamed asset hun).trans (h.unnamed asset hun)
  kept := by
    intro asset hasset
    obtain ⟨asset₂, hasset₂, hid₂, htenant₂, hcreated₂⟩ := h.kept asset hasset
    obtain ⟨asset₃, hasset₃, hid₃, htenant₃, hcreated₃⟩ := h'.kept asset₂ hasset₂
    exact ⟨asset₃, hasset₃, hid₃.trans hid₂, htenant₃.trans htenant₂, hcreated₃.trans hcreated₂⟩

/-! ### Each statement of the two passes -/

variable {tenant : TenantId} {asset : AssetModel} {asset_def : AssetDefinition}

theorem of_create_asset (hdef : asset_def ∈ definition.assets) (hname : asset.name = asset_def.name)
    (h : db.create_asset tenant asset = .ok db₁) : PartialDeploy definition db db₁ := by
  unfold Metadata.create_asset at h
  simp only [Fallible.bind_eq_ok_iff] at h
  obtain ⟨row, hrow, assets, hins, h⟩ := h
  cases h
  have hins := insert_row_eq_ok hins
  have hnamed : definition.names row.name :=
    ⟨asset_def, hdef, .inr (hname ▸ AssetModel.new_row_name hrow)⟩
  refine ⟨rfl, rfl, rfl, rfl, fun _ hdep => hdep, ?_, ?_⟩
  · intro asset' hun
    rw [Table.mem_of_insert? hins]
    constructor
    · rintro (rfl | hold)
      · exact absurd hnamed hun
      · exact hold
    · exact .inr
  · intro asset' hasset'
    exact ⟨asset', (Table.mem_of_insert? hins).mpr (.inr hasset'), rfl, rfl, rfl⟩

theorem of_update_asset (hdef : asset_def ∈ definition.assets) (hname : asset.name = asset_def.name)
    {existing : AssetModel} (hexisting : existing ∈ db.assets.rows)
    (hexisting_name : existing.name = asset_def.name) (hid : asset.id = existing.id)
    (h : db.update_asset tenant asset = .ok db₁) : PartialDeploy definition db db₁ := by
  unfold Metadata.update_asset at h
  simp only [Fallible.bind_eq_ok_iff] at h
  obtain ⟨written, hwritten, assets, hupd, h⟩ := h
  cases h
  obtain ⟨row, -, -, hupd⟩ := update_row_eq_ok hupd
  rw [AssetModel.validated_eq_ok hwritten, hid] at hupd
  have hnew : definition.names written.name :=
    ⟨asset_def, hdef, .inr (hname ▸ AssetModel.validated_name hwritten)⟩
  -- the one row that is written had the name of the definition
  have hold : ∀ r ∈ db.assets.rows, r.id = existing.id → definition.names r.name := by
    intro r hr hkey
    rw [Table.eq_of_key_eq hr hexisting hkey]
    exact ⟨asset_def, hdef, .inl hexisting_name⟩
  refine ⟨rfl, rfl, rfl, rfl, fun _ hdep => hdep, ?_, ?_⟩
  · intro asset' hun
    constructor
    · intro hmem
      obtain ⟨r, hr, heq⟩ := Table.mem_of_update? hupd hmem
      by_cases hkey : r.id = existing.id
      · rw [if_pos (decide_eq_true hkey)] at heq
        subst heq
        exact absurd hnew hun
      · rw [if_neg (by simpa using hkey)] at heq
        rw [heq]
        exact hr
    · intro hmem
      have hkey : asset'.id ≠ existing.id := fun hkey => hun (hold asset' hmem hkey)
      have hafter := Table.mem_update?_of_mem hupd hmem
      rw [if_neg (by simpa using hkey)] at hafter
      exact hafter
  · intro asset' hasset'
    refine ⟨_, Table.mem_update?_of_mem hupd hasset', ?_⟩
    split <;> exact ⟨rfl, rfl, rfl⟩

theorem of_create_asset_dependency {id id' upstream_id downstream_id : Uuid} {now : DateTime}
    {dep_type : String} (h : db.create_asset_dependency tenant id now upstream_id downstream_id
      dep_type = .ok (db₁, id')) : PartialDeploy definition db db₁ := by
  unfold Metadata.create_asset_dependency at h
  simp only [Fallible.bind_eq_ok_iff] at h
  obtain ⟨-, -, -, -, -, -, asset_dependencies, hins, h⟩ := h
  cases h
  refine ⟨rfl, rfl, rfl, rfl, ?_, fun _ _ => Iff.rfl,
    fun asset hasset => ⟨asset, hasset, rfl, rfl, rfl⟩⟩
  intro dep hdep
  exact (Table.mem_of_insert? (insert_row_eq_ok hins)).mpr (.inr hdep)

end PartialDeploy

/-! ### The two passes -/

section passes
variable {env : Environment} {lookups : Lookups} {tenant : TenantId}
  {definition : WorkflowDefinition}

theorem onTables_refl (w : World) : OnTables (PartialDeploy definition) w w :=
  OnTables.refl PartialDeploy.refl w

theorem onTables_trans (w₁ w₂ w₃ : World) :
    OnTables (PartialDeploy definition) w₁ w₂ → OnTables (PartialDeploy definition) w₂ w₃ →
      OnTables (PartialDeploy definition) w₁ w₃ :=
  OnTables.trans (R := PartialDeploy definition) (fun _ _ _ => PartialDeploy.trans) w₁ w₂ w₃

/-- One asset of the definition. What is updated is what the lookup has found. -/
theorem keeps_create_or_update_asset (hsound : lookups.Sound env) {asset_def : AssetDefinition}
    (hdef : asset_def ∈ definition.assets) (owner : Option String) :
    Keeps (OnTables (PartialDeploy definition))
      (create_or_update_asset env lookups tenant asset_def owner) := by
  intro w
  obtain ⟨op, hop, hfound⟩ := hsound.asset tenant asset_def.name
  unfold create_or_update_asset
  refine Keeps.bind_at onTables_trans (keeps_utc_now PartialDeploy.refl w) fun now w₁ _ => ?_
  rw [hop]
  refine Keeps.bind_at onTables_trans (keeps_query PartialDeploy.refl op w₁)
    fun existing_asset w₂ hquery => ?_
  obtain ⟨-, hanswer, rfl⟩ := query_eq_ok_iff.mp hquery
  cases existing_asset with
  | none =>
    refine Keeps.bind onTables_trans (keeps_new_v4 PartialDeploy.refl) (fun asset_id => ?_) _
    refine Keeps.bind onTables_trans ?_ fun _ => Keeps.pure onTables_refl asset_id
    exact Keeps.map_error _ fun w => statement_kept (PartialDeploy.refl w.db) fun db' h =>
      PartialDeploy.of_create_asset hdef rfl h
  | some existing =>
    obtain ⟨hexisting, hname⟩ := hfound w₁.db existing hanswer
    refine Keeps.bind_at onTables_trans (onTables_refl _) fun asset_id w₃ hpure => ?_
    obtain ⟨rfl, rfl⟩ := pure_eq_iff.mp hpure
    refine Keeps.bind_at onTables_trans ?_ fun _ w₄ _ => onTables_refl w₄
    -- the tables are still those in which the asset was found
    show OnTables _ _ (context _ (statement env _) _).2
    unfold context
    rw [map_error_snd]
    have hmodel : (asset_def.asset_model tenant owner (some existing) existing.id now).id =
      existing.id := rfl
    exact statement_kept (PartialDeploy.refl _) fun db' h =>
      PartialDeploy.of_update_asset hdef rfl hexisting hname hmodel h

theorem keeps_deploy_assets (hsound : lookups.Sound env) :
    Keeps (OnTables (PartialDeploy definition)) (deploy_assets env lookups tenant definition) :=
  Keeps.foldlM onTables_refl onTables_trans (fun _ _ hdef =>
    Keeps.bind onTables_trans (keeps_create_or_update_asset hsound hdef definition.owner)
      fun _ => Keeps.pure onTables_refl _) []

theorem keeps_create_asset_dependency (upstream_id downstream_id : Uuid) (dep_type : String) :
    Keeps (OnTables (PartialDeploy definition))
      (create_asset_dependency env tenant upstream_id downstream_id dep_type) := by
  refine Keeps.bind onTables_trans (keeps_new_v4 PartialDeploy.refl) fun id => ?_
  refine Keeps.bind onTables_trans (keeps_utc_now PartialDeploy.refl) fun now => ?_
  refine fun w => storage_call_kept (PartialDeploy.refl w.db) fun a db' h => ?_
  obtain ⟨⟨db₁, id'⟩, hcreate, heq⟩ := Fallible.map_eq_ok_iff.mp h
  cases heq
  exact PartialDeploy.of_create_asset_dependency hcreate

theorem keeps_deploy_dependency (asset_ids : List (String × Uuid)) (dependency_count : Nat)
    (edge : String × DependencyDefinition) :
    Keeps (OnTables (PartialDeploy definition))
      (deploy_dependency env tenant asset_ids dependency_count edge) := by
  unfold deploy_dependency
  refine Keeps.bind onTables_trans (Keeps.lift onTables_refl _) fun downstream_id => ?_
  refine Keeps.bind onTables_trans (Keeps.lift onTables_refl _) fun upstream_id => ?_
  refine Keeps.bind onTables_trans (Keeps.lift onTables_refl _) fun dep_type => ?_
  exact Keeps.bind onTables_trans
    (Keeps.attempt (keeps_create_asset_dependency upstream_id downstream_id dep_type))
    fun _ => Keeps.lift onTables_refl _

/-- Both passes, at whatever point they end. -/
theorem keeps_deploy_contents (hsound : lookups.Sound env) (row : Uuid × Bool) :
    Keeps (OnTables (PartialDeploy definition))
      (deploy_contents env lookups tenant definition row) := by
  unfold deploy_contents
  refine Keeps.bind onTables_trans (keeps_deploy_assets hsound) fun asset_ids => ?_
  refine Keeps.bind onTables_trans ?_ fun _ => Keeps.pure onTables_refl _
  exact Keeps.foldlM onTables_refl onTables_trans
    (fun dependency_count edge _ => keeps_deploy_dependency asset_ids dependency_count edge) 0

end passes

/-! ### A deploy that fails -/

/-- The row of the definition has been created, or the row there was has been updated. -/
def RowWritten (definition : WorkflowDefinition) (tenant : TenantId) (db db₁ : Metadata) : Prop :=
  ∃ workflow_id now,
    db.create_workflow tenant (definition.workflow_model tenant workflow_id false now) = .ok db₁ ∨
    db.update_workflow tenant (definition.workflow_model tenant workflow_id true now) = .ok db₁

section failure
variable {env : Environment} {lookups : Lookups} {tenant : TenantId}
  {definition : WorkflowDefinition}

theorem reads_workflow_id_of (existing_workflow : Option WorkflowModel) :
    Reads (workflow_id_of env existing_workflow) := by
  cases existing_workflow <;> exact fun _ => ⟨rfl, rfl⟩

theorem write_workflow_changes (workflow_id : Uuid) (was_update : Bool) (now : DateTime)
    (w : World) :
    OnTables (fun db db₁ => db₁ = db ∨ RowWritten definition tenant db db₁) w
      (write_workflow env tenant (definition.workflow_model tenant workflow_id was_update now)
        was_update w).2 := by
  unfold write_workflow context
  split
  · next hupdate =>
    subst hupdate
    rw [map_error_snd]
    exact statement_kept (.inl rfl) fun db₁ h => .inr ⟨workflow_id, now, .inr h⟩
  · next hcreate =>
    rw [Bool.not_eq_true] at hcreate
    subst hcreate
    rw [map_error_snd]
    exact statement_kept (.inl rfl) fun db₁ h => .inr ⟨workflow_id, now, .inl h⟩

theorem deploy_workflow_row_changes (hsound : lookups.Sound env) (w : World) :
    OnTables (fun db db₁ => db₁ = db ∨ RowWritten definition tenant db db₁) w
      (deploy_workflow_row env lookups tenant definition w).2 := by
  obtain ⟨op, hop⟩ := hsound.workflow tenant definition.name
  unfold deploy_workflow_row
  rw [hop]
  refine (reads_query op).bind (.inl rfl) fun existing_workflow w₁ _ => ?_
  refine (reads_workflow_id_of existing_workflow).bind (.inl rfl) fun row w₂ _ => ?_
  refine Reads.bind (keeps_utc_now fun _ => rfl) (.inl rfl) fun now w₃ _ => ?_
  rw [bind_pure_snd]
  exact write_workflow_changes row.1 row.2 now w₃

/-- The workflow row can only be created: what an update would write has version 0. -/
theorem deploy_workflow_row_eq_ok (hsound : lookups.Sound env) {w w' : World} {row : Uuid × Bool}
    (h : deploy_workflow_row env lookups tenant definition w = (.ok row, w')) :
    lookups.find_workflow_by_name tenant definition.name w =
        (.ok none, { w with storage := ⟨w.db, w.storage.calls + 1⟩ }) ∧
      row = (env.uuid w.uuids, false) ∧
      ∃ db, w.db.create_workflow tenant
          (definition.workflow_model tenant (env.uuid w.uuids) false (env.now w.readings)) =
            .ok db ∧
        w' = { w with
          storage := ⟨db, w.storage.calls + 2⟩
          uuids := w.uuids + 1
          readings := w.readings + 1 } := by
  obtain ⟨op, hop⟩ := hsound.workflow tenant definition.name
  unfold deploy_workflow_row at h
  rw [hop] at h ⊢
  obtain ⟨existing_workflow, w₁, hlookup, h⟩ := bind_eq_ok_iff.mp h
  obtain ⟨row', w₂, hrow, h⟩ := bind_eq_ok_iff.mp h
  obtain ⟨now, w₃, hnow, h⟩ := bind_eq_ok_iff.mp h
  obtain ⟨u, w₄, hwrite, h⟩ := bind_eq_ok_iff.mp h
  obtain ⟨rfl, rfl⟩ := pure_eq_iff.mp h
  cases existing_workflow with
  | some existing =>
    obtain ⟨rfl, rfl⟩ := pure_eq_iff.mp hrow
    obtain ⟨-, db, hupdate, -⟩ := statement_eq_ok_iff.mp (context_eq_ok_iff.mp hwrite)
    exact absurd (Metadata.update_workflow_version hupdate) (Int.lt_irrefl 0)
  | none =>
    cases hrow
    cases hnow
    obtain ⟨-, db, hcreate, rfl⟩ := statement_eq_ok_iff.mp (context_eq_ok_iff.mp hwrite)
    obtain ⟨-, -, rfl⟩ := query_eq_ok_iff.mp hlookup
    exact ⟨hlookup, rfl, db, hcreate, rfl⟩

/-- A deploy that succeeds has found no workflow of the name and created its row, and then gone
    through both passes. -/
theorem deploy_workflow_with_eq_ok (hsound : lookups.Sound env)
    {workflow_file : Except DeployError WorkflowDefinition} {w w' : World}
    {result : DeploymentResult}
    (h : deploy_workflow_with env lookups tenant workflow_file w = (.ok result, w')) :
    ∃ definition db w₁, parse_workflow_file env.parsers workflow_file = .ok definition ∧
      lookups.find_workflow_by_name tenant definition.name w =
        (.ok none, { w with storage := ⟨w.db, w.storage.calls + 1⟩ }) ∧
      w.db.create_workflow tenant
        (definition.workflow_model tenant (env.uuid w.uuids) false (env.now w.readings)) = .ok db ∧
      deploy_assets env lookups tenant definition
        { w with
          storage := ⟨db, w.storage.calls + 2⟩
          uuids := w.uuids + 1
          readings := w.readings + 1 } = (.ok result.asset_ids, w₁) ∧
      deploy_dependencies env tenant definition result.asset_ids w₁ =
        (.ok result.dependency_count, w') ∧
      result.workflow_id = env.uuid w.uuids ∧ PartialDeploy definition db w'.db := by
  obtain ⟨definition, w₁, hparse, h⟩ := bind_eq_ok_iff.mp h
  obtain ⟨hdefinition, rfl⟩ := lift_eq_ok_iff.mp hparse
  obtain ⟨row, w₂, hrow, hcontents⟩ := bind_eq_ok_iff.mp h
  obtain ⟨hlookup, rfl, db, hcreate, rfl⟩ := deploy_workflow_row_eq_ok hsound hrow
  have hkeeps : Keeps (OnTables (PartialDeploy definition))
      (deploy_contents env lookups tenant definition (env.uuid w.uuids, false)) :=
    keeps_deploy_contents hsound _
  have hkept := hkeeps { w with
    storage := ⟨db, w.storage.calls + 2⟩
    uuids := w.uuids + 1
    readings := w.readings + 1 }
  rw [hcontents] at hkept
  obtain ⟨asset_ids, w₁, hassets, hcontents⟩ := bind_eq_ok_iff.mp hcontents
  obtain ⟨dependency_count, w₂, hdependencies, hpure⟩ := bind_eq_ok_iff.mp hcontents
  obtain ⟨rfl, rfl⟩ := pure_eq_iff.mp hpure
  exact ⟨definition, db, w₁, hdefinition, hlookup, hcreate, hassets, hdependencies, rfl,
    hkept.tables⟩

end failure

/-- A deploy whose connection is lost when it looks for its first asset. -/
def lost_connection_deploy : Except DeployError DeploymentResult × World :=
  deploy_workflow
    { Environment.quiet 0 with
      storage_faults := fun n =>
        if n = 2 then some ⟨"Connection failed: connection reset", false⟩ else none }
    "default" (.ok daily_etl) (.start .empty [])

theorem lost_connection_fails :
    lost_connection_deploy.1 = .error ["Connection failed: connection reset"] := by
  decide +kernel

end Servo
