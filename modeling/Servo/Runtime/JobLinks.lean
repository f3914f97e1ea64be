import Servo.Runtime.BackfillSteps

/-! # Links Between Jobs, Partitions and Processes

    What the foreign keys do not say. A job row is never deleted and keeps
    its identity, so the copy an executor took when it claimed the job still
    describes the row. Children belong to a root job with `include_upstream`
    of the same tenant, have no children of their own, and have no partition
    rows: only the command line inserts partitions, and only for root jobs.
-/

namespace Servo.Backfill

open LTS

variable {D : Deployment} {s s' : State} {l : Label}

/-! ### Rows persist -/

theorem job_persists (h : next D s l = some s') {id : Uuid} {row : BackfillJobModel}
    (hrow : s.db.job? id = some row) :
    ∃ row', s'.db.job? id = some row' ∧ row'.identity = row.identity := by
  obtain ⟨row', hrow', hwrite⟩ := job_write h hrow
  exact ⟨row', hrow', hwrite.identity_eq⟩

theorem partition_persists (h : next D s l = some s') {id : Uuid} {p : BackfillPartitionModel}
    (hp : s.db.partition? id = some p) :
    ∃ p', s'.db.partition? id = some p' ∧ p'.identity = p.identity := by
  obtain ⟨p', hp', hwrite⟩ := partition_write h hp
  exact ⟨p', hp', hwrite.identity_eq⟩

/-! ### The links -/

/-- The links between the tables and the processes. -/
structure Links (D : Deployment) (s : State) : Prop where
  processing : ∀ e job, (s.executors e).processing? = some job →
    ∃ row, s.db.job? job.id = some row ∧ row.identity = job.identity ∧
      row.tenant_id = D.tenant_id e
  notifying : ∀ e child parent_id, (s.executors e).notifying? = some (child, parent_id) →
    child.parent_job_id = some parent_id ∧
    ∃ row, s.db.job? child.id = some row ∧ row.identity = child.identity ∧
      row.tenant_id = D.tenant_id e
  propagating : ∀ e job, (s.executors e).propagating? = some job →
    job.include_upstream = true ∧ job.parent_job_id = none ∧ job.upstream_job_count = 0
  parent : ∀ id row parent_id, s.db.job? id = some row → row.parent_job_id = some parent_id →
    row.include_upstream = false ∧ ∃ parent, s.db.job? parent_id = some parent ∧
      parent.tenant_id = row.tenant_id ∧ parent.parent_job_id = none ∧
      parent.include_upstream = true
  client : ∀ c job_id tenant_id todo,
    s.clients c = .creating_partitions job_id tenant_id todo →
    ∃ row, s.db.job? job_id = some row ∧ row.tenant_id = tenant_id ∧ row.parent_job_id = none
  partition : ∀ id p, s.db.partition? id = some p →
    ∃ row, s.db.job? p.backfill_job_id = some row ∧ row.tenant_id = p.tenant_id ∧
      row.parent_job_id = none

/-- An executor inside `process_job` after a step was there before, or has just
    claimed the job. -/
theorem processing_cases (h : next D s l = some s') {e : ExecutorId} {job : BackfillJobModel}
    (hjob : (s'.executors e).processing? = some job) :
    (s.executors e).processing? = some job ∨
      ∃ row now locked, l = .exec e (.claim_pending_backfill_job now locked) ∧
        s.executors e = .idle ∧ row.tenant_id = D.tenant_id e ∧
        row.claimable (D.config e).stale_heartbeat_threshold now = true ∧
        job = row.claimed now ∧ s.db.SetsJob row job s'.db := by
  obtain heq | ⟨a, rfl, hcall⟩ := executor_cases h e
  · exact Or.inl (heq ▸ hjob)
  · obtain hsame | ⟨row, now, locked, hpc, rfl, hrest⟩ := hcall.processing? hjob
    · exact Or.inl hsame
    · exact Or.inr ⟨row, now, locked, rfl, hpc, hrest⟩

/-- The row a job claim left. -/
theorem claimed_job_row {db db' : Db} {row job : BackfillJobModel} {now : DateTime}
    (hclaimed : job = row.claimed now) (hsets : db.SetsJob row job db') :
    db.job? job.id = some row ∧ db'.job? job.id = some job := by
  subst hclaimed
  have hid : (row.claimed now).id = row.id := rfl
  rw [hid]
  exact ⟨hsets.found, by rw [hsets.job?_eq, if_pos rfl]⟩

theorem next_check_ne_creating_partitions (req : BackfillRequest) (keys : List String)
    (job_id : Uuid) (tenant_id : TenantId) (todo : List String) :
    next_check req keys ≠ .creating_partitions job_id tenant_id todo := by
  unfold next_check
  split <;> simp

theorem next_partition_eq {job_id job_id' : Uuid} {tenant_id tenant_id' : TenantId}
    {keys todo : List String}
    (h : next_partition job_id tenant_id keys = .creating_partitions job_id' tenant_id' todo) :
    job_id = job_id' ∧ tenant_id = tenant_id' ∧ keys = todo ∧ todo ≠ [] := by
  unfold next_partition at h
  split at h
  · cases h
  · next hne => cases h; exact ⟨rfl, rfl, rfl, hne⟩

theorem links_initial : Links D initial where
  processing := by intro e job hjob; cases hjob
  notifying := by intro e child parent_id hn; cases hn
  propagating := by intro e job hjob; cases hjob
  parent := by intro id row parent_id hrow; cases hrow
  client := by intro c job_id tenant_id todo hc; cases hc
  partition := by intro id p hp; cases hp

/-- The row of a job that an executor has in hand stays. -/
theorem held_row_persists (h : next D s l = some s') {job : BackfillJobModel}
    {tenant_id : TenantId}
    (hheld : ∃ row, s.db.job? job.id = some row ∧ row.identity = job.identity ∧
      row.tenant_id = tenant_id) :
    ∃ row, s'.db.job? job.id = some row ∧ row.identity = job.identity ∧
      row.tenant_id = tenant_id := by
  obtain ⟨row, hrow, hid, htenant⟩ := hheld
  obtain ⟨row', hrow', hid'⟩ := job_persists h hrow
  exact ⟨row', hrow', hid'.trans hid, (congrArg JobIdentity.tenant_id hid').trans htenant⟩

/-- The row of a root job stays. -/
theorem root_row_persists (h : next D s l = some s') {job_id : Uuid} {tenant_id : TenantId}
    (hroot : ∃ row, s.db.job? job_id = some row ∧ row.tenant_id = tenant_id ∧
      row.parent_job_id = none) :
    ∃ row, s'.db.job? job_id = some row ∧ row.tenant_id = tenant_id ∧
      row.parent_job_id = none := by
  obtain ⟨row, hrow, htenant, hparent⟩ := hroot
  obtain ⟨row', hrow', hid⟩ := job_persists h hrow
  exact ⟨row', hrow', (congrArg JobIdentity.tenant_id hid).trans htenant,
    (congrArg JobIdentity.parent_job_id hid).trans hparent⟩

/-- The parent of a child is a root job of the child's tenant that asks for children. -/
theorem parent_link_step (hinv : Links D s) (h : next D s l = some s') {id parent_id : Uuid}
    {row' : BackfillJobModel} (hrow' : s'.db.job? id = some row')
    (hparent : row'.parent_job_id = some parent_id) :
    row'.include_upstream = false ∧ ∃ parent, s'.db.job? parent_id = some parent ∧
      parent.tenant_id = row'.tenant_id ∧ parent.parent_job_id = none ∧
      parent.include_upstream = true := by
  rcases job_origin h hrow' with ⟨row, hrow, hwrite⟩ | ⟨-, -, hins⟩
  · have hid := hwrite.identity_eq
    obtain ⟨hinclude, parent, hfind, htenant, hroot, hup⟩ := hinv.parent id row parent_id hrow
      ((congrArg JobIdentity.parent_job_id hid).symm.trans hparent)
    obtain ⟨parent', hfind', hpid⟩ := job_persists h hfind
    refine ⟨(congrArg JobIdentity.include_upstream hid).trans hinclude, parent', hfind', ?_,
      (congrArg JobIdentity.parent_job_id hpid).trans hroot,
      (congrArg JobIdentity.include_upstream hpid).trans hup⟩
    exact (congrArg JobIdentity.tenant_id hpid).trans
      (htenant.trans (congrArg JobIdentity.tenant_id hid).symm)
  · cases hins with
    | by_client => cases hparent
    | @by_parent e job asset todo max_depth n up down id' now s' hpc hpc' =>
      -- the new child belongs to the job that its executor has in hand
      cases hparent
      obtain ⟨row, hrow, hid, htenant⟩ :=
        held_row_persists h (hinv.processing e job (by rw [hpc]; rfl))
      obtain ⟨hup, hroot, -⟩ := hinv.propagating e job (by rw [hpc]; rfl)
      exact ⟨rfl, row, hrow, htenant, (congrArg JobIdentity.parent_job_id hid).trans hroot,
        (congrArg JobIdentity.include_upstream hid).trans hup⟩

/-- A command line process inserts partitions of root jobs only. -/
theorem client_link_step (hinv : Links D s) (h : next D s l = some s') {c : ClientId}
    {job_id : Uuid} {tenant_id : TenantId} {todo : List String}
    (hc : s'.clients c = .creating_partitions job_id tenant_id todo) :
    ∃ row, s'.db.job? job_id = some row ∧ row.tenant_id = tenant_id ∧
      row.parent_job_id = none := by
  have hkeep : ∀ todo', s.clients c = .creating_partitions job_id tenant_id todo' →
      ∃ row, s'.db.job? job_id = some row ∧ row.tenant_id = tenant_id ∧
        row.parent_job_id = none := by
    intro todo' hc'
    exact root_row_persists h (hinv.client c job_id tenant_id todo' hc')
  rcases client_cases h c with heq | ⟨a, rfl, hcall⟩
  · exact hkeep todo (heq ▸ hc)
  · rw [hc] at hcall
    generalize hpc : s.clients c = pc at hcall
    generalize hpc' : CliPc.creating_partitions job_id tenant_id todo = pc' at hcall
    generalize s'.db = db' at hcall hkeep ⊢
    cases hcall with
    | started | no_active_found =>
      exact absurd hpc'.symm (next_check_ne_creating_partitions _ _ _ _ _)
    | @job_created req hreq id now timestamp _ hins =>
      -- the job has just been inserted, without a parent
      obtain ⟨rfl, rfl, -, -⟩ := next_partition_eq hpc'.symm
      rw [hins.job?_eq]
      exact ⟨_, if_pos rfl, rfl, rfl⟩
    | partition_created _ _ =>
      obtain ⟨rfl, rfl, -, -⟩ := next_partition_eq hpc'.symm
      exact hkeep _ hpc
    | _ => cases hpc'

/-- **Step lemma** for the links. -/
theorem links_step (hinv : Links D s) (h : next D s l = some s') : Links D s' where
  processing := by
    intro e job hjob
    rcases processing_cases h hjob with hold | ⟨row, now, locked, -, -, htenant, -, hclaimed, hsets⟩
    · exact held_row_persists h (hinv.processing e job hold)
    · exact ⟨job, (claimed_job_row hclaimed hsets).2, rfl, by rw [hclaimed]; exact htenant⟩
  notifying := by
    intro e child parent_id hn
    rcases executor_cases h e with heq | ⟨a, rfl, hcall⟩
    · rw [heq] at hn
      obtain ⟨hparent, hheld⟩ := hinv.notifying e child parent_id hn
      exact ⟨hparent, held_row_persists h hheld⟩
    · rcases hcall.notifying? hn with ⟨hpc, -⟩ | ⟨pl, row, now, hpc, -, rfl, hparent, -⟩
      · obtain ⟨hparent, hheld⟩ := hinv.notifying e child parent_id (by rw [hpc]; rfl)
        exact ⟨hparent, held_row_persists h hheld⟩
      · -- the child is the job the executor has just finished
        exact ⟨hparent, held_row_persists h (hinv.processing e pl.job (by rw [hpc]; rfl))⟩
  propagating := by
    intro e job hjob
    rcases executor_cases h e with heq | ⟨a, rfl, hcall⟩
    · exact hinv.propagating e job (heq ▸ hjob)
    · rcases hcall.propagating? hjob with hold | ⟨-, -, hroot⟩
      · exact hinv.propagating e job hold
      · exact hroot
  parent := fun _ _ _ hrow' hparent => parent_link_step hinv h hrow' hparent
  client := fun _ _ _ _ hc => client_link_step hinv h hc
  partition := by
    intro id p' hp'
    rcases partition_origin h hp' with
      ⟨p, hp, hwrite⟩ | ⟨-, -, c, _, job_id, tenant_id, key, todo, -, rfl, -, hpc, -⟩
    · have hid := hwrite.identity_eq
      have hjob_id : p'.backfill_job_id = p.backfill_job_id :=
        congrArg PartitionIdentity.backfill_job_id hid
      have htenant : p'.tenant_id = p.tenant_id := congrArg PartitionIdentity.tenant_id hid
      rw [hjob_id, htenant]
      exact root_row_persists h (hinv.partition id p hp)
    · exact root_row_persists h (hinv.client c job_id tenant_id _ hpc)

theorem links_of_run {tr : List Event} (h : Run (system D) tr s) : Links D s := by
  refine h.invariant (P := Links D) ?_ ?_
  · rintro s rfl
    exact links_initial
  · exact fun s l s' hinv hs => links_step hinv hs

end Servo.Backfill
