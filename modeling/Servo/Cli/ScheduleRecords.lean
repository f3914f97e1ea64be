import Servo.Cli.DeployCommand
import Servo.Cli.PartialDeploy
import Servo.CloudGcp.SchedulerJobs
import Servo.Framework.System

/-! # Scheduler Jobs and Their Records

    A job that a deploy has created is to be found under `scheduler_job_name`
    of its workflow. Only the deploy that creates a workflow gets as far as
    creating a job, so what matters is that this one deploy, once the job is
    there, also comes to write its name.

    `Recordable` lists what has to go well after the request; every run whose
    deploys meet it keeps all jobs recorded.
-/

namespace Servo

open LTS Procedure

/-! ### The system -/

/-- The tables, and the jobs of Cloud Scheduler. -/
structure Deployed where
  db : Metadata
  jobs : SchedulerJobs

/-- One run of the command, with what it meets. -/
structure Deploy where
  env : Environment
  config : Config
  workflow_file : Except DeployError WorkflowDefinition

def Deploy.after (d : Deploy) (s : Deployed) : World :=
  (execute d.env d.config d.workflow_file (.start s.db s.jobs)).2

/-- Deploys one after the other, from any tables and no jobs. -/
def deploys : System Deployed Deploy where
  init s := s.jobs = []
  next s d := some ⟨(d.after s).db, (d.after s).jobs⟩

/-- Every job that exists is named by the row of its workflow. -/
def NoOrphans (s : Deployed) : Prop :=
  ∀ job ∈ s.jobs, ∃ row ∈ s.db.workflows.rows,
    job.Triggers row.id ∧ row.scheduler_job_name = some job.name

/-! ### When a job is recorded -/

/-- After the request for the job: `get_workflow` and `update_workflow` do not fail (or only the
    answer of the latter is lost), the name fits its column, and the clock does not go back. -/
structure Recordable (env : Environment) (manager : CloudSchedulerManager) (tenant_id : String) :
    Prop where
  found : env.storage_faults 3 = none
  written : ∀ fault, env.storage_faults 4 = some fault → fault.carried_out = true
  fits : ∀ name, (env.network.service.filed_as
      (manager.requested_name (env.uuid 0) tenant_id) = some name ∨
        name = manager.full_job_path (env.uuid 0) tenant_id) → name.length ≤ 255
  clock : env.now 0 ≤ env.now 1

/-- The deploy does not leave a job without its record. It only comes to a job if the definition
    has a schedule and no assets, the configuration is complete, and the lookup of the job does
    not fail. -/
def Deploy.Settles (d : Deploy) : Prop :=
  ∀ definition manager,
    parse_workflow_file d.env.parsers d.workflow_file = .ok definition →
    definition.schedule.isSome = true → definition.assets = [] →
    scheduler_manager d.env d.config = .ok manager → d.env.network.faults 0 = none →
    (∀ fault, d.env.network.faults 1 = some fault → fault.carried_out = false) ∧
    (d.env.network.faults 1 = none → Recordable d.env manager d.config.tenant_id)

/-! ### Names that are kept -/

/-- Names of jobs that are recorded stay so. -/
def KeepsNames (db db' : Metadata) : Prop :=
  ∀ row ∈ db.workflows.rows, ∀ name : String, name.length ≤ 255 →
    row.scheduler_job_name = some name →
      ∃ row' ∈ db'.workflows.rows, row'.id = row.id ∧ row'.scheduler_job_name = some name

theorem KeepsNames.of_workflows_eq {db db' : Metadata} (h : db'.workflows = db.workflows) :
    KeepsNames db db' := by
  intro row hrow name _ hname
  exact ⟨row, h ▸ hrow, rfl, hname⟩

theorem KeepsNames.refl (db : Metadata) : KeepsNames db db := .of_workflows_eq rfl

theorem KeepsNames.trans {db₁ db₂ db₃ : Metadata} (h : KeepsNames db₁ db₂)
    (h' : KeepsNames db₂ db₃) : KeepsNames db₁ db₃ := by
  intro row hrow name hfits hname
  obtain ⟨row₂, hrow₂, hid₂, hname₂⟩ := h row hrow name hfits hname
  obtain ⟨row₃, hrow₃, hid₃, hname₃⟩ := h' row₂ hrow₂ name hfits hname₂
  exact ⟨row₃, hrow₃, hid₃.trans hid₂, hname₃⟩

section names
variable {db db' : Metadata} {tenant : TenantId} {workflow : WorkflowModel}

theorem KeepsNames.of_create (h : db.create_workflow tenant workflow = .ok db') :
    KeepsNames db db' := by
  obtain ⟨row, workflows, -, hins, rfl⟩ := Metadata.create_workflow_eq_ok h
  intro row' hrow' name _ hname
  exact ⟨row', (Table.mem_of_insert? hins).mpr (.inr hrow'), rfl, hname⟩

/-- An update writes the name that was there, or there was none. -/
theorem KeepsNames.of_update (h : db.update_workflow tenant workflow = .ok db')
    (hsame : ∀ row, db.workflows.find? workflow.id = some row →
      row.scheduler_job_name = none ∨ row.scheduler_job_name = workflow.scheduler_job_name) :
    KeepsNames db db' := by
  obtain ⟨written, row₀, workflows, hvalid, hfound, -, -, hupd, rfl⟩ :=
    Metadata.update_workflow_eq_ok_iff.mp h
  obtain ⟨-, -, -, -, -, hjob, -⟩ := WorkflowModel.validated_fields hvalid
  intro row hrow name hfits hname
  refine ⟨_, Table.mem_update?_of_mem hupd hrow, ?_⟩
  by_cases hid : row.id = workflow.id
  · rw [if_pos (decide_eq_true hid)]
    refine ⟨rfl, ?_⟩
    show written.scheduler_job_name = some name
    have hrow₀ : row = row₀ := Table.eq_of_key_eq hrow (Table.mem_of_find? hfound)
      (hid.trans (Table.key_of_find? hfound).symm)
    subst hrow₀
    rcases hsame row hfound with hnone | heq
    · rw [hname] at hnone
      cases hnone
    · rw [← heq, hname] at hjob
      exact (Except.ok.inj ((Fallible.map_eq_ok_iff.mpr
        ⟨name, varchar_of_length_le hfits, rfl⟩).symm.trans hjob)).symm
  · rw [if_neg (by simpa using hid)]
    exact ⟨rfl, hname⟩

end names

/-! ### The deploy of the workflow -/

section deploy
variable {env : Environment} {tenant : TenantId} {w w' : World}
  {workflow_file : Except DeployError WorkflowDefinition}

theorem onTables_names_trans (w₁ w₂ w₃ : World) (h : OnTables KeepsNames w₁ w₂)
    (h' : OnTables KeepsNames w₂ w₃) : OnTables KeepsNames w₁ w₃ :=
  OnTables.trans (R := KeepsNames) (fun _ _ _ => KeepsNames.trans) w₁ w₂ w₃ h h'

theorem KeepsNames.of_rowWritten {definition : WorkflowDefinition} {db db₁ : Metadata}
    (h : RowWritten definition tenant db db₁) : KeepsNames db db₁ := by
  obtain ⟨workflow_id, now, hcreate | hupdate⟩ := h
  · exact .of_create hcreate
  · exact absurd (Metadata.update_workflow_version hupdate) (Int.lt_irrefl 0)

/-- However `deploy_workflow` ends, it forgets no name and touches no job. -/
theorem keeps_deploy_workflow :
    Keeps (OnTables KeepsNames) (deploy_workflow env tenant workflow_file) := by
  refine Keeps.bind onTables_names_trans (Keeps.lift (OnTables.refl KeepsNames.refl) _)
    fun definition => ?_
  refine Keeps.bind onTables_names_trans (fun w => ?_) fun row w => ?_
  · obtain ⟨htables, hjobs⟩ :
        OnTables (fun db db₁ => db₁ = db ∨ RowWritten definition tenant db db₁)
        w (deploy_workflow_row env (.listing env) tenant definition w).2 :=
      deploy_workflow_row_changes Lookups.listing_sound w
    refine ⟨?_, hjobs⟩
    rcases htables with hsame | hwritten
    · exact .of_workflows_eq (congrArg _ hsame)
    · exact .of_rowWritten hwritten
  · obtain ⟨htables, hjobs⟩ : OnTables (PartialDeploy definition) w
        (deploy_contents env (.listing env) tenant definition row w).2 :=
      keeps_deploy_contents Lookups.listing_sound row w
    exact ⟨.of_workflows_eq htables.workflows, hjobs⟩

/-- The lookup of an asset asks for more rows than the storage allows. -/
theorem listing_finds_no_asset {name : String} {found : Option AssetModel} :
    (Lookups.listing env).find_asset_by_name tenant name w ≠ (.ok found, w') := by
  intro h
  obtain ⟨-, hop, -⟩ := query_eq_ok_iff.mp h
  obtain ⟨assets, hlist, -⟩ := Fallible.map_eq_ok_iff.mp hop
  cases hlist

/-- So only a definition without assets is deployed. -/
theorem deploy_assets_listing {definition : WorkflowDefinition}
    {asset_ids : List (String × Uuid)}
    (h : deploy_assets env (Lookups.listing env) tenant definition w = (.ok asset_ids, w')) :
    definition.assets = [] ∧ asset_ids = [] ∧ w' = w := by
  unfold deploy_assets at h
  cases hassets : definition.assets with
  | nil =>
    rw [hassets] at h
    obtain ⟨rfl, rfl⟩ := pure_eq_iff.mp h
    exact ⟨rfl, rfl, rfl⟩
  | cons asset_def assets =>
    rw [hassets, List.foldlM_cons] at h
    obtain ⟨_, _, hfirst, -⟩ := bind_eq_ok_iff.mp h
    obtain ⟨_, _, hasset, -⟩ := bind_eq_ok_iff.mp hfirst
    obtain ⟨_, _, -, hlookup⟩ := bind_eq_ok_iff.mp hasset
    obtain ⟨_, _, hlookup, -⟩ := bind_eq_ok_iff.mp hlookup
    exact absurd hlookup listing_finds_no_asset

/-- A successful deploy: one row is created, with two calls. -/
theorem deploy_workflow_eq_ok {result : DeploymentResult}
    (h : deploy_workflow env tenant workflow_file w = (.ok result, w')) :
    ∃ definition db, parse_workflow_file env.parsers workflow_file = .ok definition ∧
      definition.assets = [] ∧
      (Lookups.listing env).find_workflow_by_name tenant definition.name w =
        (.ok none, { w with storage := ⟨w.db, w.storage.calls + 1⟩ }) ∧
      w.db.create_workflow tenant
        (definition.workflow_model tenant (env.uuid w.uuids) false (env.now w.readings)) = .ok db ∧
      result.workflow_id = env.uuid w.uuids ∧
      w' = { w with
        storage := ⟨db, w.storage.calls + 2⟩
        uuids := w.uuids + 1
        readings := w.readings + 1 } := by
  obtain ⟨definition, db, w₁, hparse, hlookup, hcreate, hassets, hdependencies, hid, -⟩ :=
    deploy_workflow_with_eq_ok Lookups.listing_sound h
  obtain ⟨hnone, hids, rfl⟩ := deploy_assets_listing hassets
  have hedges : definition.edges = [] := by
    unfold WorkflowDefinition.edges
    rw [hnone]
    rfl
  unfold deploy_dependencies at hdependencies
  rw [hedges] at hdependencies
  obtain ⟨-, rfl⟩ := pure_eq_iff.mp hdependencies
  exact ⟨definition, db, hparse, hnone, hlookup, hcreate, hid, rfl⟩

end deploy

/-- The invariant: names of jobs fit their column, so that they survive being written again. -/
def Tracked (db : Metadata) (jobs : SchedulerJobs) : Prop :=
  ∀ job ∈ jobs, job.name.length ≤ 255 ∧ ∃ row ∈ db.workflows.rows,
    job.Triggers row.id ∧ row.scheduler_job_name = some job.name

theorem Tracked.mono {db db' : Metadata} {jobs : SchedulerJobs} (h : Tracked db jobs)
    (hkeeps : KeepsNames db db') : Tracked db' jobs := by
  intro job hjob
  obtain ⟨hfits, row, hrow, htriggers, hname⟩ := h job hjob
  obtain ⟨row', hrow', hid, hname'⟩ := hkeeps row hrow job.name hfits hname
  exact ⟨hfits, row', hrow', hid ▸ htriggers, hname'⟩

/-! ### Rewriting the row -/

section rewriting
variable {env : Environment} {tenant : TenantId} {workflow_id : Uuid} {w : World}

/-- The tables in which the row is read are those in which it is written. -/
theorem rewrite_workflow_kept {R : Metadata → Metadata → Prop} {reading writing : String}
    {change : WorkflowModel → DateTime → WorkflowModel} (hrefl : R w.db w.db)
    (hchange : ∀ row now db', w.db.get_workflow tenant workflow_id = .ok row →
      w.db.update_workflow tenant (change row now) = .ok db' → R w.db db') :
    OnTables R w (rewrite_workflow env tenant workflow_id reading writing change w).2 := by
  refine Reads.bind (Keeps.map_error _ (reads_query _)) hrefl fun row w₁ hread => ?_
  obtain ⟨-, hget, rfl⟩ := query_eq_ok_iff.mp (context_eq_ok_iff.mp hread)
  refine Reads.bind (keeps_utc_now fun _ => rfl) hrefl fun now w₂ hnow => ?_
  have hdb : w₂.db = w.db := by
    cases hnow
    rfl
  unfold context
  rw [map_error_snd]
  refine statement_kept (hdb ▸ hrefl) fun db' hupdate => ?_
  rw [hdb] at hupdate ⊢
  exact hchange row now db' hget hupdate

/-- The name of the job survives that its schedule is disabled. -/
theorem disable_keeps_names :
    OnTables KeepsNames w (disable_schedule_on_sync_failure env tenant workflow_id w).2 := by
  refine rewrite_workflow_kept (KeepsNames.refl w.db) fun row now db' hget hupdate => ?_
  obtain ⟨hfound, -⟩ := Metadata.get_workflow_eq_ok_iff.mp hget
  refine .of_update hupdate fun row' hfound' => .inr ?_
  have hid : row.id = workflow_id := Table.key_of_find? hfound
  change w.db.workflows.find? row.id = some row' at hfound'
  rw [hid, hfound] at hfound'
  cases hfound'
  rfl

/-- The row is there, it can be written back, and names no job so far. -/
structure Unscheduled (db : Metadata) (tenant : TenantId) (workflow_id : Uuid)
    (created_at : DateTime) (row : WorkflowModel) : Prop where
  found : db.get_workflow tenant workflow_id = .ok row
  stored : row.validated = .ok row
  version : 0 < row.version
  created : row.created_at = created_at
  no_job : row.scheduler_job_name = none

/-- So it is after the workflow has been created. -/
theorem unscheduled_of_create {definition : WorkflowDefinition} {now : DateTime} {db db' : Metadata}
    (h : db.create_workflow tenant (definition.workflow_model tenant workflow_id false now) =
      .ok db') : ∃ row, Unscheduled db' tenant workflow_id now row := by
  obtain ⟨row, hrow, hget⟩ := Metadata.get_workflow_of_create h
  obtain ⟨written, hvalid, hcheck, rfl⟩ := WorkflowModel.new_row_fields hrow
  obtain ⟨hne, hname, howner, hcron, htimezone, hjob, hwritten⟩ :=
    WorkflowModel.validated_fields (WorkflowModel.validated_again hvalid)
  refine ⟨_, hget, WorkflowModel.validated_of_fields hne hname howner hcron htimezone hjob,
    (WorkflowModel.check_violation_eq_none_iff.mp hcheck).2, ?_, ?_⟩
  · rw [(WorkflowModel.validated_fields hvalid).2.2.2.2.2.2]
    rfl
  · exact (Except.ok.inj (WorkflowModel.validated_fields hvalid).2.2.2.2.2.1).symm

/-- When the two calls go well, the name is recorded and no other is lost. -/
theorem record_job_name_records {row : WorkflowModel} {created_at : DateTime} {job_name : String}
    (hrow : Unscheduled w.db tenant workflow_id created_at row)
    (hread : env.storage_faults w.storage.calls = none)
    (hwrite : ∀ fault, env.storage_faults (w.storage.calls + 1) = some fault →
      fault.carried_out = true)
    (hfits : job_name.length ≤ 255) (hclock : created_at ≤ env.now w.readings) :
    ∃ db', (record_job_name env tenant workflow_id job_name w).2.db = db' ∧
      (record_job_name env tenant workflow_id job_name w).2.jobs = w.jobs ∧
      KeepsNames w.db db' ∧
      ∃ row' ∈ db'.workflows.rows, row'.id = workflow_id ∧
        row'.scheduler_job_name = some job_name := by
  obtain ⟨db', hupdate, hnamed⟩ := Metadata.update_workflow_of_get hrow.found hrow.stored
    hrow.version hfits (hrow.created.le.trans hclock)
  have hafter : (record_job_name env tenant workflow_id job_name w).2 = { w with
      storage := ⟨db', w.storage.calls + 2⟩
      readings := w.readings + 1 } := by
    unfold record_job_name rewrite_workflow
    rw [bind_apply_ok (context_eq_ok_iff.mpr (query_eq_ok_iff.mpr ⟨hread, hrow.found, rfl⟩))]
    show (context _ (statement env _) _).2 = _
    unfold context
    rw [map_error_snd]
    exact statement_carried_out hupdate hwrite
  refine ⟨db', by rw [hafter]; rfl, by rw [hafter]; rfl, .of_update hupdate ?_, hnamed⟩
  intro row' hfound'
  obtain ⟨hfound, -⟩ := Metadata.get_workflow_eq_ok_iff.mp hrow.found
  have hid : row.id = workflow_id := Table.key_of_find? hfound
  change w.db.workflows.find? row.id = some row' at hfound'
  rw [hid, hfound] at hfound'
  cases hfound'
  exact .inl hrow.no_job

end rewriting

/-! ### After the deploy -/

section schedule
variable {env : Environment} {config : Config} {tenant : TenantId}
  {definition : WorkflowDefinition} {workflow_id : Uuid} {w : World}

theorem scheduler_call_eq_ok_iff {α : Type} {failure : String}
    {x : Procedure (Remote SchedulerJobs) GcpError α} {a : α} {w' : World} :
    scheduler_call failure x w = (.ok a, w') ↔
      ∃ r, x w.scheduler = (.ok a, r) ∧ { w with scheduler := r } = w' := by
  unfold scheduler_call
  rw [map_error_eq_ok_iff, zoom_eq_iff]

theorem scheduler_call_eq_error {α : Type} {failure : String}
    {x : Procedure (Remote SchedulerJobs) GcpError α} {e : DeployError} {w' : World}
    (h : scheduler_call failure x w = (.error e, w')) :
    ∃ e' r, x w.scheduler = (.error e', r) ∧ { w with scheduler := r } = w' := by
  unfold scheduler_call at h
  obtain ⟨e', hzoom, -⟩ := map_error_eq_error_iff.mp h
  obtain ⟨r, hx, hset⟩ := zoom_eq_iff.mp hzoom
  exact ⟨e', r, hx, hset⟩

/-- The invariant after two steps, by the outcome of the first. -/
theorem tracked_bind {α β : Type} {x : Command α} {f : α → Command β}
    (herror : ∀ e w₁, x w = (.error e, w₁) → Tracked w₁.db w₁.jobs)
    (hok : ∀ a w₁, x w = (.ok a, w₁) → Tracked (f a w₁).2.db (f a w₁).2.jobs) :
    Tracked ((x >>= f) w).2.db ((x >>= f) w).2.jobs :=
  Keeps.bind_cases (R := fun _ (w' : World) => Tracked w'.db w'.jobs) herror hok

theorem tracked_lift_bind {α β : Type} {x : Except DeployError α} {f : α → Command β}
    (h : Tracked w.db w.jobs)
    (hok : ∀ a, x = .ok a → Tracked (f a w).2.db (f a w).2.jobs) :
    Tracked ((lift x >>= f) w).2.db ((lift x >>= f) w).2.jobs := by
  refine tracked_bind (fun e w₁ hfail => ?_) fun a w₁ hlift => ?_
  · obtain ⟨-, rfl⟩ := lift_eq_error_iff.mp hfail
    exact h
  · obtain ⟨hx, rfl⟩ := lift_eq_ok_iff.mp hlift
    exact hok a hx

/-- The world of a command that has deployed its workflow. -/
structure Created (env : Environment) (tenant : TenantId) (workflow_id : Uuid) (w : World) :
    Prop where
  id : workflow_id = env.uuid 0
  storage : w.storage.calls = 3
  scheduler : w.scheduler.calls = 0
  readings : w.readings = 1
  row : ∃ row, Unscheduled w.db tenant workflow_id (env.now 0) row

/-- The job that `sync_scheduler` has requested is recorded, and no other name is lost. -/
theorem sync_tracks (hcreated : Created env tenant workflow_id w) (h : Tracked w.db w.jobs)
    (hsettles : ∀ manager, scheduler_manager env config = .ok manager →
      env.network.faults 0 = none →
      (∀ fault, env.network.faults 1 = some fault → fault.carried_out = false) ∧
        (env.network.faults 1 = none → Recordable env manager config.tenant_id)) :
    Tracked (sync_scheduler env config tenant definition workflow_id w).2.db
      (sync_scheduler env config tenant definition workflow_id w).2.jobs := by
  obtain ⟨hid, hstorage, hscheduler, hreadings, row, hrow⟩ := hcreated
  refine tracked_lift_bind h fun manager hmanager => ?_
  refine tracked_lift_bind h fun schedule _ => ?_
  refine tracked_bind ?_ fun job_name w₁ hsync => ?_
  · -- nothing has been requested, or it is known not to have been done
    intro e w₁ hfail
    obtain ⟨e', r, hrequest, rfl⟩ := scheduler_call_eq_error hfail
    have hsame := CloudSchedulerManager.create_or_update_job_eq_error (fun hlookup => by
      rw [hscheduler] at hlookup ⊢
      exact (hsettles manager hmanager hlookup).1) hrequest
    show Tracked w.db r.state
    rw [hsame]
    exact h
  · obtain ⟨r, hrequest, rfl⟩ := scheduler_call_eq_ok_iff.mp hsync
    obtain ⟨hfirst, hsecond, hname, job, hjob_name, htriggers, hjobs⟩ :=
      CloudSchedulerManager.create_or_update_job_eq_ok hrequest
    rw [hscheduler] at hfirst hsecond
    have hrecord := (hsettles manager hmanager hfirst).2 hsecond
    have hfits : job_name.length ≤ 255 := hrecord.fits job_name (hid ▸ hname)
    have hread : env.storage_faults w.storage.calls = none := by
      rw [hstorage]
      exact hrecord.found
    have hwrite : ∀ fault, env.storage_faults (w.storage.calls + 1) = some fault →
        fault.carried_out = true := by
      rw [hstorage]
      exact hrecord.written
    have hclock : env.now 0 ≤ env.now w.readings := by
      rw [hreadings]
      exact hrecord.clock
    obtain ⟨db', hdb, hkept_jobs, hkeeps, row', hrow', hrow_id, hrecorded⟩ :=
      record_job_name_records (w := { w with scheduler := r }) hrow hread hwrite hfits hclock
    rw [hdb, hkept_jobs]
    intro j hj
    rcases hjobs j hj with rfl | hold
    · refine ⟨hjob_name ▸ hfits, row', hrow', hrow_id ▸ htriggers, ?_⟩
      rw [hrecorded, hjob_name]
    · exact h.mono hkeeps j hold

/-- What follows a failure keeps what it finds. -/
theorem on_failure_kept {x handler : Command Unit} {P : World → Prop} (hx : P (x w).2)
    (hhandler : ∀ w', P w' → P (handler w').2) : P (on_failure x handler w).2 := by
  unfold on_failure
  refine Keeps.bind_cases (R := fun _ (w' : World) => P w') ?_ fun outcome w₁ houtcome => ?_
  · intro e w₁ hfail
    cases hfail
  rw [attempt_eq_ok_iff] at houtcome
  rw [houtcome] at hx
  cases outcome with
  | ok => exact hx
  | error e =>
    show P ((attempt handler >>= fun _ => pure ()) w₁).2
    rw [bind_pure_snd]
    exact hhandler w₁ hx

theorem disable_tracks (h : Tracked w.db w.jobs) :
    Tracked (disable_schedule_on_sync_failure env tenant workflow_id w).2.db
      (disable_schedule_on_sync_failure env tenant workflow_id w).2.jobs := by
  have hkeeps : OnTables KeepsNames w
    (disable_schedule_on_sync_failure env tenant workflow_id w).2 := disable_keeps_names
  rw [hkeeps.jobs]
  exact h.mono hkeeps.tables

/-- No workflow had the name, so there is no job to be deleted. -/
theorem handle_schedule_tracks (hcreated : Created env tenant workflow_id w)
    (h : Tracked w.db w.jobs)
    (hsettles : ∀ manager, definition.schedule.isSome = true →
      scheduler_manager env config = .ok manager → env.network.faults 0 = none →
      (∀ fault, env.network.faults 1 = some fault → fault.carried_out = false) ∧
        (env.network.faults 1 = none → Recordable env manager config.tenant_id)) :
    Tracked (handle_schedule env config tenant definition none workflow_id w).2.db
      (handle_schedule env config tenant definition none workflow_id w).2.jobs := by
  unfold handle_schedule
  by_cases hschedule : definition.schedule.isSome = true
  · rw [if_pos hschedule]
    exact on_failure_kept (P := fun (w' : World) => Tracked w'.db w'.jobs)
      (sync_tracks hcreated h fun manager => hsettles manager hschedule) fun w' => disable_tracks
  · rw [if_neg hschedule]
    exact h

end schedule

/-! ### One deploy, and all of them -/

/-- Both lookups of a deploy see the same tables. -/
theorem lookup_again {env : Environment} {tenant : TenantId} {name : String}
    {found found' : Option WorkflowModel} {w w₁ w₂ : World}
    (h : (Lookups.listing env).find_workflow_by_name tenant name w = (.ok found, w₁))
    (h' : (Lookups.listing env).find_workflow_by_name tenant name w₁ = (.ok found', w₂)) :
    found = found' := by
  obtain ⟨-, hop, rfl⟩ := query_eq_ok_iff.mp h
  obtain ⟨-, hop', -⟩ := query_eq_ok_iff.mp h'
  exact Except.ok.inj (hop.symm.trans hop')

theorem execute_tracks {d : Deploy} {s : Deployed} (h : Tracked s.db s.jobs)
    (hsettles : d.Settles) : Tracked (d.after s).db (d.after s).jobs := by
  unfold Deploy.after execute
  refine tracked_lift_bind h fun definition hparse => ?_
  have hreads : Reads ((Lookups.listing d.env).find_workflow_by_name d.config.tenant_id
      definition.name) := reads_query _
  refine tracked_bind ?_ fun existing w₁ hlookup => ?_
  · intro e w₁ hfail
    have hsame := hreads (.start s.db s.jobs)
    rw [hfail] at hsame
    rw [hsame.jobs, hsame.tables]
    exact h
  have hsame : w₁ = ⟨⟨s.db, 1⟩, ⟨s.jobs, 0⟩, 0, 0⟩ :=
    (query_eq_ok_iff.mp hlookup).2.2
  refine tracked_bind ?_ fun result w₂ hdeploy => ?_
  · intro e w₂ hfail
    have hkept : OnTables KeepsNames w₁
        (deploy_workflow d.env d.config.tenant_id d.workflow_file w₁).2 := keeps_deploy_workflow w₁
    rw [hfail] at hkept
    rw [hkept.jobs]
    subst hsame
    exact h.mono hkept.tables
  · obtain ⟨definition', db, hparse', hassets, hnone, hcreate, hid, hafter⟩ :=
      deploy_workflow_eq_ok hdeploy
    rw [hparse] at hparse'
    obtain rfl := Except.ok.inj hparse'
    rw [lookup_again hlookup hnone]
    subst hsame
    subst hafter
    exact handle_schedule_tracks
      ⟨hid, rfl, rfl, rfl, hid ▸ unscheduled_of_create hcreate⟩ (h.mono (.of_create hcreate))
      fun manager hschedule hmanager =>
        hsettles definition manager hparse hschedule hassets hmanager

theorem no_orphans {tr : List (Step Deployed Deploy)} {s : Deployed} (h : Run deploys tr s)
    (hsettles : Along (fun _ st => st.label.Settles) tr) : NoOrphans s := by
  have htracked : Tracked s.db s.jobs := by
    refine Run.along_invariant (P := fun _ s => Tracked s.db s.jobs) ?_ ?_ h hsettles
    · intro s hinit job hjob
      rw [hinit] at hjob
      exact absurd hjob List.not_mem_nil
    · intro tr s d s' _ htracked hd hnext
      obtain rfl := Option.some.inj hnext
      exact execute_tracks htracked hd
  exact fun job hjob => (htracked job hjob).2

/-! ### A nightly schedule -/

/-- A definition with a schedule and nothing else. -/
def nightly : WorkflowDefinition :=
  { daily_etl with schedule := some ⟨"0 2 * * *", "UTC", none⟩, assets := [] }

def nightly_config : Config :=
  ⟨"default", some "etl", some "us-central1", some "https://worker.example", some "deploy@etl"⟩

/-- Its deploy in an environment. -/
def nightly_deploy (env : Environment) : Deploy := ⟨env, nightly_config, .ok nightly⟩

def after_nightly (env : Environment) : Deployed :=
  ⟨((nightly_deploy env).after ⟨.empty, []⟩).db, ((nightly_deploy env).after ⟨.empty, []⟩).jobs⟩

theorem nightly_run (env : Environment) :
    Run deploys [⟨⟨.empty, []⟩, nightly_deploy env, after_nightly env⟩] (after_nightly env) :=
  .step (nightly_deploy env) (.init rfl) rfl

def nightly_manager : CloudSchedulerManager :=
  ⟨"etl", "us-central1", "https://worker.example", "deploy@etl"⟩

theorem nightly_is_recordable : Recordable (.quiet 0) nightly_manager "default" where
  found := rfl
  written := fun fault hfault => by cases hfault
  fits := by
    rintro name (hname | rfl)
    · obtain rfl := Option.some.inj hname
      decide +kernel
    · decide +kernel
  clock := by decide

theorem nightly_settles : (nightly_deploy (.quiet 0)).Settles := by
  intro definition manager _ _ _ hmanager _
  refine ⟨fun fault hfault => ?_, fun _ => ?_⟩
  · cases hfault
  · obtain rfl : nightly_manager = manager := Except.ok.inj hmanager
    exact nightly_is_recordable

theorem nightly_has_no_orphans : NoOrphans (after_nightly (.quiet 0)) :=
  no_orphans (nightly_run _) ⟨nightly_settles, trivial⟩

/-- The connection to the database is lost when the name of the job is to be written. -/
def unrecorded : Environment :=
  { Environment.quiet 0 with
    storage_faults := fun n =>
      if n = 4 then some ⟨"Connection failed: connection reset", false⟩ else none }

/-- The job is there, and its workflow does not name it. -/
theorem nightly_job_is_orphaned :
    Run deploys [⟨⟨.empty, []⟩, nightly_deploy unrecorded, after_nightly unrecorded⟩]
        (after_nightly unrecorded) ∧
      (after_nightly unrecorded).jobs.length = 1 ∧
      (after_nightly unrecorded).db.workflows.rows.map (·.scheduler_job_name) = [none] ∧
      ¬ NoOrphans (after_nightly unrecorded) := by
  have hjobs : (after_nightly unrecorded).jobs.length = 1 := by decide +kernel
  have hnames :
      (after_nightly unrecorded).db.workflows.rows.map (·.scheduler_job_name) = [none] := by
    decide +kernel
  refine ⟨nightly_run unrecorded, hjobs, hnames, fun h => ?_⟩
  obtain ⟨job, hjob⟩ := List.length_eq_one_iff.mp hjobs
  obtain ⟨row, hrow, -, hname⟩ := h job (hjob ▸ List.mem_singleton_self job)
  have hnone : row.scheduler_job_name ∈ [none] := hnames ▸ List.mem_map_of_mem hrow
  rw [hname, List.mem_singleton] at hnone
  cases hnone

end Servo
