import Servo.Runtime.MutualExclusion
import Servo.Runtime.PartitionRows

/-! # Completed Jobs and Unfinished Work

    The executor takes "no partition to claim" for "all partitions done". The
    two differ when partition rows are still to be inserted by the client, or
    held by another executor, or left `running` by a crashed one, and the job
    is then completed with unfinished work.

    A job all of whose rows are there, none of them running or claimable, is
    *processed*. It stays so: there is no client to insert a row and no
    operation to write one. So if every executor that finds no partition
    finds the job processed, the completed jobs are exactly as they should be.
-/

namespace Servo.Backfill

open LTS

variable {D : Deployment} {s s' : State} {l : Label}

/-! ### Processed jobs -/

/-- All partition rows of the job have been inserted, and none of them is running or
    can be claimed by any executor. -/
structure Processed (D : Deployment) (s : State) (job_id : Uuid) : Prop where
  inserted : ∀ row, s.db.job? job_id = some row →
    ((job_partitions s job_id).card : Int) = row.total_partitions
  closed : ∀ id p, s.db.partition? id = some p → p.backfill_job_id = job_id →
    p.state ≠ .running ∧ ∀ e, p.claimable (D.config e).max_partition_retries = false

theorem claimable_of_pending {p : BackfillPartitionModel} (hstate : p.state = .pending)
    (max_retries : Int) : p.claimable max_retries = true := by
  unfold BackfillPartitionModel.claimable
  rw [hstate]

/-- **Step lemma**: a processed job stays processed. -/
theorem processed_step (hrows : PartitionRows s) {job_id : Uuid} {row : BackfillJobModel}
    (hrow : s.db.job? job_id = some row) (hinv : Processed D s job_id)
    (h : next D s l = some s') : Processed D s' job_id := by
  -- no client is left to insert a row
  have hclient : ∀ c tenant_id key todo,
      s.clients c ≠ .creating_partitions job_id tenant_id (key :: todo) := by
    intro c tenant_id key todo hc
    have hsum := (hrows.client c job_id tenant_id _ row hc hrow).1
    have hall := hinv.inserted row hrow
    rw [List.length_cons] at hsum
    omega
  constructor
  · intro row' hrow'
    rw [total_partitions_eq h hrow hrow', ← hinv.inserted row hrow]
    obtain heq | ⟨c, _, tenant_id, key, todo, -, hc, -⟩ := job_partitions_step h job_id
    · rw [heq]
    · exact absurd hc (hclient c tenant_id key todo)
  · intro id p' hp' hjob'
    obtain ⟨p, hp, hwrite⟩ | ⟨-, -, c, _, job_id', tenant_id, key, todo, -, rfl, -, hc, -⟩ :=
      partition_origin h hp'
    · have hjob : p.backfill_job_id = job_id :=
        (congrArg PartitionIdentity.backfill_job_id hwrite.identity_eq).symm.trans hjob'
      obtain ⟨hrunning, hclaimable⟩ := hinv.closed id p hp hjob
      cases hwrite with
      | unchanged => exact ⟨hrunning, hclaimable⟩
      | @claimed e _ _ _ _ _ _ _ _ _ hclaim =>
        rw [hclaimable e] at hclaim
        cases hclaim
      | requeued _ _ _ hstate | completed _ _ _ hstate | failed _ _ _ hstate =>
        exact absurd hstate hrunning
      | skipped hstate =>
        have hno := hclaimable 0
        rw [claimable_of_pending hstate] at hno
        cases hno
    · cases hjob'
      exact absurd hc (hclient c tenant_id key todo)

/-! ### Completed jobs are processed -/

/-- The job in which an executor finds no partition to claim. -/
def found_nothing (st : Event) : Option Uuid :=
  match st.label with
  | .exec e (.claim_pending_partition _ _) =>
    match st.post.executors e with
    | .finishing pl => some pl.job.id
    | _ => none
  | _ => none

/-- An executor that finds no partition to claim finds its job processed. -/
def finishes_processed (D : Deployment) (st : Event) : Prop :=
  ∀ job_id, found_nothing st = some job_id → Processed D st.pre job_id

/-- The jobs that are completed or about to be. -/
structure CompletedProcessed (D : Deployment) (s : State) : Prop where
  finishing : ∀ e pl, s.executors e = .finishing pl → Processed D s pl.job.id
  completed : ∀ id row, s.db.job? id = some row → row.state = .completed → Processed D s id

theorem completed_processed_initial : CompletedProcessed D initial where
  finishing := by intro e pl hpc; cases hpc
  completed := by intro id row hrow; cases hrow

/-- **Step lemma** for completed jobs. -/
theorem completed_processed_step (hlinks : Links D s) (hrows : PartitionRows s)
    (hinv : CompletedProcessed D s) (h : next D s l = some s')
    (hok : finishes_processed D ⟨s, l, s'⟩) : CompletedProcessed D s' where
  finishing := by
    intro e pl hpc'
    have hkeep : Processed D s pl.job.id → ∀ pc, s.executors e = pc →
        pc.processing? = some pl.job → Processed D s' pl.job.id := by
      intro hprocessed pc hpc hjob
      obtain ⟨row, hrow, -⟩ := hlinks.processing e pl.job (by rw [hpc]; exact hjob)
      exact processed_step hrows hrow hprocessed h
    obtain heq | ⟨a, rfl, hcall⟩ := executor_cases h e
    · have hpc := heq.symm.trans hpc'
      exact hkeep (hinv.finishing e pl hpc) _ hpc rfl
    · rw [hpc'] at hcall
      obtain ⟨hpc, now, locked, rfl⟩ := hcall.finishing
      exact hkeep (hok pl.job.id (by simp [found_nothing, hpc'])) _ hpc rfl
  completed := by
    intro id row' hrow' hcompleted
    obtain ⟨row, hrow, hwrite⟩ | ⟨-, -, hins⟩ := job_origin h hrow'
    · have hold : row.state = .completed → Processed D s' id := fun hstate =>
        processed_step hrows hrow (hinv.completed id row hrow hstate) h
      rcases hwrite.completed_cases hcompleted with hstate | ⟨e, pl, hpc, -, hid, -⟩
      · exact hold hstate
      · have hprocessed := hinv.finishing e pl hpc
        rw [← hid, Db.id_of_job? hrow] at hprocessed
        exact processed_step hrows hrow hprocessed h
    · cases hins <;> cases hcompleted

theorem completed_processed_of_run {tr : List Event} (hrun : Run (system D) tr s)
    (hok : ∀ st ∈ tr, finishes_processed D st) : CompletedProcessed D s := by
  refine hrun.along_invariant (P := fun _ s => CompletedProcessed D s) ?_ ?_
    ((along_iff_forall _ _).mpr hok)
  · rintro s rfl
    exact completed_processed_initial
  · exact fun tr s l s' hrun hinv hok hs =>
      completed_processed_step (links_of_run hrun) (partition_rows_of_run hrun) hinv hs hok

/-! ### The main result -/

/-- The job has exactly its partitions, and none of them is pending or running. -/
def NoUnfinishedWork (s : State) (job : BackfillJobModel) : Prop :=
  ((job_partitions s job.id).card : Int) = job.total_partitions ∧
    ∀ id p, s.db.partition? id = some p → p.backfill_job_id = job.id →
      p.state ≠ .pending ∧ p.state ≠ .running

/-- An executor dies with a partition claimed; another one reclaims the job, finds
    nothing to claim, and completes it. -/
def abandoned_partition_schedule : List Label :=
  create_single false ++ claim_job 0 1 ++ enter_loop 0 2 ++
    ([.exec 0 (.claim_pending_partition 3 []), .exec 0 .crash,
     .exec 1 (.claim_pending_backfill_job 121000002 [])] : List Label) ++
    enter_loop 1 121000003 ++ finish_job 1 121000004

theorem abandoned_partition_is_completed_over :
    ¬ ∀ (tr : List Event) (s : State), Run (system (uniform {} "tenant")) tr s →
      ∀ id job, s.db.job? id = some job → job.state = .completed → NoUnfinishedWork s job := by
  intro hclaim
  obtain ⟨tr, s, hrun, htest⟩ := (system (uniform {} "tenant")).exists_run_of_replay
    abandoned_partition_schedule
    (fun _ s => (s.db.job? 1).any (fun job => job.state = .completed) &&
      (s.db.partition? 2).any (fun p => p.backfill_job_id = 1 && p.state = .running))
    rfl (by decide +kernel)
  simp only [Bool.and_eq_true, Option.any_eq_true, decide_eq_true_eq] at htest
  obtain ⟨⟨job, hjob, hstate⟩, p, hp, hjob_id, hrunning⟩ := htest
  have hid := Db.id_of_job? hjob
  exact ((hclaim tr s hrun 1 job hjob hstate).2 2 p hp (hjob_id.trans hid.symm)).2 hrunning

/-- **A completed job has no unfinished work**, in every run in which each executor that
    finds no partition to claim finds all rows of the job inserted and none of them
    running or claimable. -/
theorem completed_job_has_no_unfinished_work {tr : List Event} (hrun : Run (system D) tr s)
    (hok : ∀ st ∈ tr, finishes_processed D st) {id : Uuid} {job : BackfillJobModel}
    (hjob : s.db.job? id = some job) (hstate : job.state = .completed) :
    NoUnfinishedWork s job := by
  have hprocessed := (completed_processed_of_run hrun hok).completed id job hjob hstate
  have hid := Db.id_of_job? hjob
  subst hid
  refine ⟨hprocessed.inserted job hjob, fun id p hp hjob_id => ?_⟩
  obtain ⟨hrunning, hclaimable⟩ := hprocessed.closed id p hp hjob_id
  refine ⟨fun hpending => ?_, hrunning⟩
  have hno := hclaimable 0
  rw [claimable_of_pending hpending] at hno
  cases hno

/-- A test for processed jobs, when all executors have the same configuration. -/
def processed_test (config : BackfillExecutorConfig) (s : State) (job_id : Uuid) : Bool :=
  (s.db.job? job_id).all (fun row =>
    ((job_partitions s job_id).card : Int) = row.total_partitions) &&
  s.db.backfill_partitions.rows.all (fun p => p.backfill_job_id ≠ job_id ||
    p.state ≠ .running && !p.claimable config.max_partition_retries)

theorem processed_of_test {config : BackfillExecutorConfig} {tenant_id : TenantId} {job_id : Uuid}
    (htest : processed_test config s job_id = true) :
    Processed (uniform config tenant_id) s job_id := by
  rw [processed_test, Bool.and_eq_true] at htest
  obtain ⟨hinserted, hclosed⟩ := htest
  constructor
  · intro row hrow
    simpa [hrow] using hinserted
  · intro id p hp hjob
    have hrow := List.all_eq_true.mp hclosed p (Table.mem_of_find? hp)
    simp only [hjob, ne_eq, not_true_eq_false, decide_false, Bool.false_or, Bool.and_eq_true,
      decide_eq_true_eq, Bool.not_eq_true'] at hrow
    exact ⟨hrow.1, fun _ => hrow.2⟩

/-- A job that is created, processed and completed. -/
def completion_schedule : List Label :=
  create_single false ++ claim_job 0 1 ++ enter_loop 0 2 ++
    complete_partition 0 3 ++ next_round 0 4 ++ finish_job 0 5

theorem processed_job_is_completed :
    ∃ tr s job, Run (system (uniform {} "tenant")) tr s ∧ s.db.job? 1 = some job ∧
      job.state = .completed ∧ NoUnfinishedWork s job := by
  obtain ⟨tr, s, hrun, htest⟩ := (system (uniform {} "tenant")).exists_run_of_replay
    completion_schedule
    (fun tr s => tr.all (fun st => (found_nothing st).all (processed_test {} st.pre)) &&
      (s.db.job? 1).any (fun job => job.state = .completed))
    rfl (by decide +kernel)
  simp only [Bool.and_eq_true, List.all_eq_true, Option.any_eq_true, decide_eq_true_eq] at htest
  obtain ⟨hok, job, hjob, hstate⟩ := htest
  refine ⟨tr, s, job, hrun, hjob, hstate,
    completed_job_has_no_unfinished_work hrun (fun st hmem job_id hfound => ?_) hjob hstate⟩
  have htest := hok st hmem
  rw [hfound] at htest
  exact processed_of_test htest

end Servo.Backfill
